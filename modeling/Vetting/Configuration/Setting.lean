import Vetting.Text.Digits
import Vetting.Url.Parser
import Vetting.Yaml.Node

/-!
Settings read from documents. A record tells settings by name; other names are passed over, and
where nothing is written a record has no members. A setting that is left out takes its default, if
there is one.
-/

namespace Vetting.Configuration

open Yaml (Document Node)

/-- Why a document makes no configuration. -/
inductive Fault where
  | document (f : Yaml.Fault)
  | noDocument
  | noRecord
  | nameNoText
  | noText
  | noNumber
  | outOfRange (limit : Nat)
  | noAddress (f : Url.Fault)
  | noNothing
  | missing (name : String)
  | repeated (name : String)
  deriving DecidableEq, Repr

def Fault.message : Fault → String
  | .document _ => "the document is not well-formed"
  | .noDocument => "there is no document"
  | .noRecord => "a record is expected"
  | .nameNoText => "the name of a setting is a text"
  | .noText => "a text is expected"
  | .noNumber => "a number is expected"
  | .outOfRange limit => "a number below " ++ toString limit ++ " is expected"
  | .noAddress f => f.message
  | .noNothing => "null is expected"
  | .missing name => "missing setting: " ++ name
  | .repeated name => "setting given twice: " ++ name

/-- How settings of a type are read. -/
class Setting (α : Type) where
  read : Document → Node → Except Fault α
  /-- What a setting that is left out is, unless it has to be given. -/
  absent : Option α

/-- The text of a node. Every text in a document counts, whatever else it could be read as. -/
def text (d : Document) (n : Node) : Except Fault String :=
  match d.follow n with
  | .scalar _ _ s => .ok s
  | _ => .error .noText

instance : Setting String := ⟨text, none⟩

instance : Setting Url where
  read d n := do
    let s ← text d n
    (Url.parse s).mapError .noAddress
  absent := none

/-- The number that digits denote; there is at least one, and each is less than the base. -/
def ofBase (base : Nat) (cs : List Char) : Option Nat := do
  if cs.isEmpty then none
  let ds ← cs.mapM Yaml.hexDigit?
  if ds.all (· < base) then some (ds.foldl (fun n d => n * base + d) 0) else none

/-- The natural number that a text denotes: hexadecimal, octal or binary after a sign for it, else
decimal without zeros in front. -/
def natural? (s : String) : Option Nat :=
  let cs := match s.toList with
    | '+' :: cs => cs
    | cs => cs
  match cs with
  | '0' :: 'x' :: cs => ofBase 16 cs
  | '0' :: 'o' :: cs => ofBase 8 cs
  | '0' :: 'b' :: cs => ofBase 2 cs
  | ['0'] => some 0
  | '0' :: _ => none
  | cs => ofBase 10 cs

def intTag : String := "tag:yaml.org,2002:int"

def nullTag : String := "tag:yaml.org,2002:null"

/-- A number below a limit. It is written plainly, or as a literal block with the tag of numbers. -/
def below (limit : Nat) (d : Document) (n : Node) : Except Fault Nat :=
  match d.follow n with
  | .scalar style tag s =>
    if style = .plain || (style = .literal && tag = some intTag) then
      match natural? s with
      | some k => if k < limit then .ok k else .error (.outOfRange limit)
      | none => .error .noNumber
    else .error .noNumber
  | _ => .error .noNumber

instance : Setting UInt16 where
  read d n := (below UInt16.size d n).map UInt16.ofNat
  absent := none

instance : Setting UInt64 where
  read d n := (below UInt64.size d n).map UInt64.ofNat
  absent := none

def nulls : List String := ["null", "Null", "NULL", "~"]

/-- Whether a node stands for nothing: a plain text without a tag that is empty or spells null. What
has the tag of null has to spell it. -/
def isNothing (d : Document) (n : Node) : Except Fault Bool :=
  match d.follow n with
  | .scalar .plain none s => .ok (s = "" || nulls.contains s)
  | .scalar .plain (some tag) s =>
    if tag ≠ nullTag then .ok false else if nulls.contains s then .ok true else .error .noNothing
  | _ => .ok false

instance {α : Type} [Setting α] : Setting (Option α) where
  read d n := do
    if ← isNothing d n then return none
    let a ← Setting.read d n
    return some a
  absent := some none

/-- The members of a record by name. -/
structure Record where
  document : Document
  members : List (String × Node)

namespace Record

def read (d : Document) (n : Node) : Except Fault Record :=
  match d.follow n with
  | .map members => do
    let members ← members.mapM fun (name, value) =>
      match d.follow name with
      | .scalar _ _ s => .ok (s, value)
      | _ => .error .nameNoText
    return ⟨d, members⟩
  | .scalar .plain _ "" => .ok ⟨d, []⟩
  | _ => .error .noRecord

/-- The setting of a name. -/
def get {α : Type} [Setting α] (r : Record) (name : String)
    (default : Option α := Setting.absent) : Except Fault α :=
  match r.members.filter fun m => m.1 = name, default with
  | [], some a => .ok a
  | [], none => .error (.missing name)
  | [(_, value)], _ => Setting.read r.document value
  | _, _ => .error (.repeated name)

end Record

/-- What a document configures. -/
def ofBytes (α : Type) [Setting α] (b : Text.Bytes) : Except Fault α :=
  match Node.ofText b with
  | .error f => .error (.document f)
  | .ok none => .error .noDocument
  | .ok (some d) => Setting.read d d.root

end Vetting.Configuration
