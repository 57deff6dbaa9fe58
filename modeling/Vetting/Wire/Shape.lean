import Vetting.Calendar.Instant
import Vetting.Json.Value

/-!
Shapes of the values that travel between the desk and its services. A record lists its fields in
order; each has a name, other names under which it is read, and a rule for when it is missing.
`Shape.Val` gives the values of a shape.
-/

namespace Vetting

inductive JobStatus where
  | pending
  | inProgress
  | done
  | failed
  | error
  deriving DecidableEq, Repr, Inhabited

namespace JobStatus

def all : List JobStatus := [.pending, .inProgress, .done, .failed, .error]

def name : JobStatus → String
  | .pending => "pending"
  | .inProgress => "in_progress"
  | .done => "done"
  | .failed => "failed"
  | .error => "error"

def ofName? (name : String) : Option JobStatus := all.find? fun s => s.name = name

theorem ofName?_name (s : JobStatus) : ofName? s.name = some s := by
  cases s <;> decide

def isTerminal : JobStatus → Bool
  | .done => true
  | .failed => true
  | .error => true
  | _ => false

end JobStatus

namespace Wire

/-- Values without parts. -/
inductive Leaf where
  | flag
  | text
  | word16
  | word64
  | int64
  | double
  | instant
  deriving DecidableEq, Repr

def Leaf.Val : Leaf → Type
  | .flag => Bool
  | .text => String
  | .word16 => UInt16
  | .word64 => UInt64
  | .int64 => Int64
  | .double => Double
  | .instant => Instant

/-- What a field is when it is missing. An optional field that must be present counts as empty
when it is missing from an object. -/
inductive Missing where
  | refused
  | filled
  deriving DecidableEq, Repr

mutual

inductive Shape where
  /-- Any JSON value. -/
  | any
  | leaf (l : Leaf)
  | status
  | option (s : Shape)
  | list (s : Shape)
  | record (name : String) (fields : Fields)

/-- The fields of a record. `brief` fields are not written when they are empty. -/
inductive Fields where
  | nil
  | cons (key : String) (aliases : List String) (s : Shape) (missing : Missing) (brief : Bool)
    (rest : Fields)

end

mutual

/-- The values of a shape. -/
def Shape.Val : Shape → Type
  | .any => Json
  | .leaf l => l.Val
  | .status => JobStatus
  | .option s => Option s.Val
  | .list s => List s.Val
  | .record _ fs => fs.Vals

def Fields.Vals : Fields → Type
  | .nil => Unit
  | .cons _ _ s _ _ rest => s.Val × rest.Vals

end

/-- Fields read so far. -/
def Fields.Slots : Fields → Type
  | .nil => Unit
  | .cons _ _ s _ _ rest => Option s.Val × rest.Slots

namespace Fields

/-- A field that must be present. -/
abbrev req (key : String) (s : Shape) (rest : Fields) : Fields := .cons key [] s .refused false rest

/-- A field that is filled when it is missing. -/
abbrev opt (key : String) (s : Shape) (rest : Fields) : Fields := .cons key [] s .filled false rest

/-- A field that is left out when it is empty. -/
abbrev maybe (key : String) (s : Shape) (rest : Fields) : Fields :=
  .cons key [] (.option s) .refused true rest

def count : Fields → Nat
  | .nil => 0
  | .cons _ _ _ _ _ rest => rest.count + 1

def noSlots : (fs : Fields) → fs.Slots
  | .nil => ()
  | .cons _ _ _ _ _ rest => (none, rest.noSlots)

/-- How the fields are named in complaints about their number. -/
def describe (name : String) (fs : Fields) : String :=
  "struct " ++ name ++ " with " ++ toString fs.count ++
    (if fs.count = 1 then " element" else " elements")

end Fields

def Leaf.filler : (l : Leaf) → l.Val
  | .flag => false
  | .text => ""
  | .word16 => (0 : UInt16)
  | .word64 => (0 : UInt64)
  | .int64 => (0 : Int64)
  | .double => Double.zero false
  | .instant => (⟨0, 0⟩ : Instant)

mutual

/-- The value that stands for a missing one. -/
def Shape.filler : (s : Shape) → s.Val
  | .any => Json.null
  | .leaf l => l.filler
  | .status => JobStatus.pending
  | .option _ => none
  | .list _ => []
  | .record _ fs => fs.fillers

def Fields.fillers : (fs : Fields) → fs.Vals
  | .nil => ()
  | .cons _ _ s _ _ rest => (s.filler, rest.fillers)

end

/-- What a field is that an object lacks. -/
def Shape.absent? (missing : Missing) : (s : Shape) → Option s.Val
  | .option _ => some none
  | s => if missing = .filled then some s.filler else none

def Leaf.toJson : (l : Leaf) → l.Val → Json
  | .flag, b => .bool b
  | .text, s => .str s
  | .word16, n => Json.ofNat (UInt16.toNat n)
  | .word64, n => Json.ofNat (UInt64.toNat n)
  | .int64, i => Json.ofInt (Int64.toInt i)
  | .double, d => .num (.double d)
  | .instant, i => .str (Instant.render i)

def Shape.isNone : (s : Shape) → s.Val → Bool
  | .option _, v => Option.isNone v
  | _, _ => false

mutual

/-- The written form of a value: each field under its own name. -/
def Shape.toJson : (s : Shape) → s.Val → Json
  | .any, j => j
  | .leaf l, v => l.toJson v
  | .status, s => .str (JobStatus.name s)
  | .option s, v =>
    match v with
    | none => .null
    | some v => s.toJson v
  | .list s, vs => .arr (List.map s.toJson vs)
  | .record _ fs, vs => Json.object (fs.members vs)

def Fields.members : (fs : Fields) → fs.Vals → List (String × Json)
  | .nil, _ => []
  | .cons key _ s _ brief rest, (v, vs) =>
    if brief && s.isNone v then rest.members vs else (key, s.toJson v) :: rest.members vs

end

end Wire

end Vetting
