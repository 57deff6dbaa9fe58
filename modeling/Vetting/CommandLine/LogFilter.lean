import Vetting.Text.Utf8

/-!
Which lines are logged. A filter is a list of rules between commas: a level, a source, or a source
with a level. For a line the rule with the longest source that its own begins with counts.
-/

namespace Vetting.CommandLine

inductive Level where
  | off
  | error
  | warn
  | info
  | debug
  | trace
  deriving DecidableEq, Repr

namespace Level

def all : List (String × Level) :=
  [("off", .off), ("error", .error), ("warn", .warn), ("info", .info), ("debug", .debug),
    ("trace", .trace)]

def name (l : Level) : String := ((all.find? fun p => p.2 = l).map (·.1)).getD ""

/-- How much is logged. -/
def rank (l : Level) : Nat := all.findIdx fun p => p.2 = l

/-- The level of a name, in small or capital letters, or of a rank. -/
def ofText? (s : String) : Option Level :=
  (all.find? fun p => s.toLower = p.1 || s = toString p.2.rank).map (·.2)

end Level

/-- A rule; without a source it is for all lines. -/
structure LogRule where
  source : String
  level : Level
  deriving DecidableEq, Repr

/-- A rule that is no rule. -/
inductive RuleFault where
  | form
  | level
  deriving DecidableEq, Repr

def RuleFault.message : RuleFault → String
  | .form => "invalid filter directive"
  | .level => "error parsing level filter: expected one of " ++
    String.join (Level.all.map fun l => "\"" ++ l.1 ++ "\", ") ++ "or a number 0-5"

def isSourceStart (c : Char) : Bool := c.isAlphanum || c = '-' || c = ':' || c = '_'

def LogRule.ofText (s : String) : Except RuleFault LogRule :=
  let cs := s.toList
  let source := cs.takeWhile (· ≠ '=')
  if !cs.head?.any isSourceStart then .error .form
  else match cs.drop source.length with
    | [] =>
      match Level.ofText? s with
      | some l => .ok ⟨"", l⟩
      | none => .ok ⟨s, .trace⟩
    | [_] => .ok ⟨String.ofList source, .trace⟩
    | _ :: level =>
      match Level.ofText? (String.ofList level) with
      | some l => .ok ⟨String.ofList source, l⟩
      | none => .error .level

/-- The rules of a filter, and what is wrong with the rest. Without a rule only errors are
logged. -/
def logRules (filter : String) : List LogRule × List String :=
  let parts := (filter.splitOn ",").filter fun s => s ≠ ""
  let rules := parts.filterMap fun s => (LogRule.ofText s).toOption
  let faults := parts.filterMap fun s => match LogRule.ofText s with
    | .ok _ => none
    | .error f => some ("ignoring \x60" ++ s ++ "\x60: " ++ f.message)
  (if rules.isEmpty then [⟨"", .error⟩] else rules, faults)

/-- The rule for lines from a source; of two for the same source the later one counts. -/
def ruleFor? (rules : List LogRule) (source : String) : Option LogRule :=
  (rules.filter fun r => r.source.isPrefixOf source).foldl (fun best r =>
    match best with
    | some b => if b.source.length ≤ r.source.length then some r else some b
    | none => some r) none

/-- Whether a line of a level from a source is logged. -/
def isLogged (rules : List LogRule) (source : String) (l : Level) : Bool :=
  (ruleFor? rules source).any fun r => l.rank ≤ r.level.rank

end Vetting.CommandLine
