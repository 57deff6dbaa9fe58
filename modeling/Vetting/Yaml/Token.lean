import Vetting.Yaml.Tag

/-!
Tokens of documents. Where a collection in indented style begins and ends is told by the columns of
its entries, and a key without a question mark is only known by the colon behind it, so a token
that may be such a key is kept in mind until its line is over.
-/

namespace Vetting.Yaml

inductive Style where
  | plain
  | single
  | double
  | literal
  | folded
  deriving DecidableEq, Repr

inductive Token where
  | directive (d : Directive)
  | documentStart
  | documentEnd
  | listStart
  | mapStart
  /-- The end of a collection in indented style. -/
  | blockEnd
  | flowListStart
  | flowListEnd
  | flowMapStart
  | flowMapEnd
  | item
  | comma
  | key
  | value
  | anchor (name : String)
  | reference (name : String)
  | tag (t : Tag)
  | scalar (style : Style) (text : String)
  deriving DecidableEq, Repr

/-- A token that may turn out to be a key. -/
structure Candidate where
  /-- How many tokens come before it. -/
  position : Nat
  /-- Whether it stands where only a key can stand. -/
  required : Bool
  line : Nat
  column : Nat
  index : Nat

/-- What has been read of a text. -/
structure Scan where
  cursor : Cursor
  /-- The latest token first. -/
  tokens : List Token
  count : Nat
  /-- The column of the innermost collection in indented style; -1 outside of all. -/
  indent : Int
  outer : List Int
  /-- One for each open bracket and one for the outside, the innermost first. -/
  candidates : List (Option Candidate)
  /-- Whether a key may begin here. -/
  keyAllowed : Bool

namespace Scan

def start (cs : List Char) : Scan := ⟨.start cs, [], 0, -1, [], [none], true⟩

def inFlow (s : Scan) : Bool := s.candidates.length > 1

def push (s : Scan) (t : Token) : Scan := { s with tokens := t :: s.tokens, count := s.count + 1 }

/-- Puts a token before those from a position on. -/
def insert (s : Scan) (position : Nat) (t : Token) : Scan :=
  let late := s.count - position
  { s with tokens := s.tokens.take late ++ t :: s.tokens.drop late, count := s.count + 1 }

def skip (s : Scan) (n : Nat) : Scan := { s with cursor := s.cursor.skip n }

/-- Forgets the candidate of the innermost level. -/
def forget (s : Scan) : Except Fault Scan :=
  match s.candidates with
  | some k :: ks =>
    if k.required then .error .unfinishedKey else .ok { s with candidates := none :: ks }
  | _ => .ok s

/-- Takes note that the next token may be a key. -/
def remember (s : Scan) : Except Fault Scan := do
  if !s.keyAllowed then return s
  let s ← s.forget
  let c := s.cursor
  let required := !s.inFlow && s.indent = (c.column : Int)
  return { s with
    candidates := some ⟨s.count, required, c.line, c.column, c.index⟩ :: s.candidates.drop 1 }

/-- How long a key may be. -/
def longestKey : Nat := 1024

/-- Forgets the candidates that can no longer be keys. -/
def forgetStale (s : Scan) : Except Fault Scan := do
  let ks ← s.candidates.mapM fun k => match k with
    | none => pure none
    | some k =>
      if k.line < s.cursor.line || k.index + longestKey < s.cursor.index then
        if k.required then throw Fault.unfinishedKey else pure none
      else pure (some k)
  return { s with candidates := ks }

/-- Ends the collections right of a column. -/
def endFrom (column : Int) : List Int → Int → List Token → Nat → List Int × Int × List Token × Nat
  | [], indent, ts, n => ([], indent, ts, n)
  | o :: outer, indent, ts, n =>
    if column < indent then endFrom column outer o (.blockEnd :: ts) (n + 1)
    else (o :: outer, indent, ts, n)

def unroll (s : Scan) (column : Int) : Scan :=
  if s.inFlow then s
  else
    let (outer, indent, tokens, count) := endFrom column s.outer s.indent s.tokens s.count
    { s with outer, indent, tokens, count }

/-- Begins a collection if the column is right of the innermost one. -/
def roll (s : Scan) (column position : Nat) (t : Token) : Scan :=
  if s.inFlow || (column : Int) ≤ s.indent then s
  else { s with outer := s.indent :: s.outer, indent := column }.insert position t

/-- Passes over blanks, comments and line ends, and a byte order mark at the start. -/
def toNextToken : Nat → Scan → Scan
  | 0, s => s
  | fuel + 1, s =>
    let c := s.cursor
    let c := if c.index = 0 && c.peek = some '\ufeff' then c.skip 1 else c
    let tabs := s.inFlow || !s.keyAllowed
    let c := c.skipWhile fun x => x = ' ' || (tabs && x = '\t')
    let c := if c.peek = some '#' then c.skipWhile fun _ => true else c
    if c.rest.isEmpty || !atLineEnd c.rest then { s with cursor := c }
    else toNextToken fuel { s with
      cursor := c.skipBreak.2, keyAllowed := s.keyAllowed || !s.inFlow }

/-- The name after the sign of an anchor or reference. -/
def nameAfterSign (c : Cursor) : Except Fault (String × Cursor) :=
  let name := (c.rest.drop 1).takeWhile isWord
  let c := c.skip (name.length + 1)
  let isAtEnd := atGap c.rest || c.rest.head?.any fun x => "?:,]\x7d%@\x60".toList.contains x
  if name.isEmpty || !isAtEnd then .error .anchor
  else .ok (String.ofList name, c)

def addDirective (s : Scan) : Except Fault Scan := do
  let s ← (s.unroll (-1)).forget
  let line := s.cursor.rest.takeWhile fun x => !isBreak x
  match Directive.ofLine? (line.drop 1) with
  | some d => return { s.skip line.length with keyAllowed := false }.push (.directive d)
  | none => throw .directive

def addMark (s : Scan) (t : Token) : Except Fault Scan := do
  let s ← (s.unroll (-1)).forget
  return { s.skip 3 with keyAllowed := false }.push t

def openFlow (s : Scan) (t : Token) : Except Fault Scan := do
  let s ← s.remember
  return { s.skip 1 with candidates := none :: s.candidates, keyAllowed := true }.push t

def closeFlow (s : Scan) (t : Token) : Except Fault Scan := do
  let s ← s.forget
  let candidates := if s.inFlow then s.candidates.drop 1 else s.candidates
  return { s.skip 1 with candidates, keyAllowed := false }.push t

def addComma (s : Scan) : Except Fault Scan := do
  let s ← s.forget
  return { s.skip 1 with keyAllowed := true }.push .comma

def addItem (s : Scan) : Except Fault Scan := do
  if !s.inFlow && !s.keyAllowed then throw .entryPlace
  let s ← (s.roll s.cursor.column s.count .listStart).forget
  return { s.skip 1 with keyAllowed := true }.push .item

def addKey (s : Scan) : Except Fault Scan := do
  if !s.inFlow && !s.keyAllowed then throw .keyPlace
  let s ← (s.roll s.cursor.column s.count .mapStart).forget
  return { s.skip 1 with keyAllowed := !s.inFlow }.push .key

def addValue (s : Scan) : Except Fault Scan :=
  match s.candidates with
  | some k :: ks =>
    let s := ({ s with candidates := none :: ks }.insert k.position .key).roll k.column k.position
      .mapStart
    .ok ({ s.skip 1 with keyAllowed := false }.push .value)
  | _ =>
    if !s.inFlow && !s.keyAllowed then .error .valuePlace
    else
      let s := s.roll s.cursor.column s.count .mapStart
      .ok ({ s.skip 1 with keyAllowed := !s.inFlow }.push .value)

def addName (s : Scan) (f : String → Token) : Except Fault Scan := do
  let s ← s.remember
  let (name, c) ← nameAfterSign s.cursor
  return { s with cursor := c, keyAllowed := false }.push (f name)

def addTag (s : Scan) : Except Fault Scan := do
  let s ← s.remember
  match takeTag s.cursor.rest with
  | none => throw .tag
  | some (t, rest) =>
    if !(atGap rest || (s.inFlow && rest.head? = some ',')) then throw .tag
    return { s.skip (s.cursor.rest.length - rest.length) with keyAllowed := false }.push (.tag t)

def addQuoted (s : Scan) (quote : Char) (style : Style) : Except Fault Scan := do
  let s ← s.remember
  let (text, c) ← quoted quote s.cursor
  return { s with cursor := c, keyAllowed := false }.push (.scalar style (String.ofList text))

def addBlock (s : Scan) (folded : Bool) : Except Fault Scan := do
  let s ← s.forget
  let (text, c) ← block folded s.indent s.cursor
  return { s with cursor := c, keyAllowed := true }.push
    (.scalar (if folded then .folded else .literal) (String.ofList text))

def addPlain (s : Scan) : Except Fault Scan := do
  let s ← s.remember
  let (text, broken, c) ← plain s.inFlow (s.indent + 1).toNat s.cursor
  return { s with cursor := c, keyAllowed := broken }.push (.scalar .plain (String.ofList text))

/-- Whether a plain text can begin here. -/
def isPlainStart (inFlow : Bool) : List Char → Bool
  | [] => false
  | c :: rest =>
    !(isBlank c || isBreak c || "-?:,[]\x7b\x7d#&*!|>'\"%@\x60".toList.contains c) ||
      (c = '-' && !rest.head?.any isBlank) ||
      (!inFlow && (c = '?' || c = ':') && !atGap rest)

/-- Adds the token that begins here; at the end of the text nothing is left to add. -/
def addToken (s : Scan) : Except Fault (Option Scan) := do
  let s ← (toNextToken (s.cursor.rest.length + 1) s).forgetStale
  let s := s.unroll s.cursor.column
  let next (r : Except Fault Scan) : Except Fault (Option Scan) := r.map some
  match s.cursor.rest with
  | [] => return none
  | c :: rest =>
    if c = '%' && s.cursor.column = 0 then next s.addDirective
    else if s.cursor.atMark '-' then next (s.addMark .documentStart)
    else if s.cursor.atMark '.' then next (s.addMark .documentEnd)
    else if c = '[' then next (s.openFlow .flowListStart)
    else if c = '\x7b' then next (s.openFlow .flowMapStart)
    else if c = ']' then next (s.closeFlow .flowListEnd)
    else if c = '\x7d' then next (s.closeFlow .flowMapEnd)
    else if c = ',' then next s.addComma
    else if c = '-' && atGap rest then next s.addItem
    else if c = '?' && (s.inFlow || atGap rest) then next s.addKey
    else if c = ':' && (s.inFlow || atGap rest) then next s.addValue
    else if c = '*' then next (s.addName .reference)
    else if c = '&' then next (s.addName .anchor)
    else if c = '!' then next s.addTag
    else if c = '|' && !s.inFlow then next (s.addBlock false)
    else if c = '>' && !s.inFlow then next (s.addBlock true)
    else if c = '\'' then next (s.addQuoted '\'' .single)
    else if c = '"' then next (s.addQuoted '"' .double)
    else if isPlainStart s.inFlow (c :: rest) then next s.addPlain
    else throw .badStart

/-- Adds all tokens. Each takes at least one character, so `fuel` need not be more than they are. -/
def addAll : Nat → Scan → Except Fault Scan
  | 0, s => .ok s
  | fuel + 1, s => do
    match ← s.addToken with
    | some s => addAll fuel s
    | none => (s.unroll (-1)).forget

end Scan

/-- The characters that may stand in a document. -/
def isAllowed (c : Char) : Bool :=
  let n := c.toNat
  n = 0x09 || n = 0x0A || n = 0x0D || (0x20 ≤ n && n ≤ 0x7E) || n = 0x85 ||
    (0xA0 ≤ n && n ≤ 0xFFFD) || 0x10000 ≤ n

def tokens (text : String) : Except Fault (List Token) :=
  let cs := text.toList
  if !cs.all isAllowed then .error .control
  else (Scan.addAll (cs.length + 1) (.start cs)).map fun s => s.tokens.reverse

end Vetting.Yaml
