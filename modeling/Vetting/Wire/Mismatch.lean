import Vetting.Double.Shortest
import Vetting.Text.Printable
import Vetting.Wire.Shape

/-!
How a JSON value can fail to have a shape, and the values of the shapes without parts.
-/

namespace Vetting.Wire

/-- What stands where something else was expected. -/
inductive Found where
  | null
  | flag (b : Bool)
  | number (n : Json.Number)
  | text (s : String)
  | list
  | object

def Found.ofJson : Json → Found
  | .null => .null
  | .bool b => .flag b
  | .num n => .number n
  | .str s => .text s
  | .arr _ => .list
  | .obj _ => .object

def Found.message : Found → String
  | .null => "null"
  | .flag b => "boolean `" ++ (if b then "true" else "false") ++ "`"
  | .number (.int i) => "integer `" ++ toString i ++ "`"
  | .number (.double d) => "floating point `" ++ d.render ++ "`"
  | .text s => "string " ++ Text.quoted s
  | .list => "sequence"
  | .object => "map"

inductive Mismatch where
  | wrongType (found : Found) (expected : String)
  | wrongValue (found : Found) (expected : String)
  | unknownName (name : String)
  | badInstant (f : Calendar.Fault)
  | missingField (key : String)
  | duplicateField (key : String)
  | wrongLength (count : Nat) (expected : String)

def Mismatch.message : Mismatch → String
  | .wrongType found expected => "invalid type: " ++ found.message ++ ", expected " ++ expected
  | .wrongValue found expected => "invalid value: " ++ found.message ++ ", expected " ++ expected
  | .unknownName name => "unknown variant `" ++ name ++ "`, expected one of " ++
      ", ".intercalate (JobStatus.all.map fun s => "`" ++ s.name ++ "`")
  | .badInstant f => f.message
  | .missingField key => "missing field `" ++ key ++ "`"
  | .duplicateField key => "duplicate field `" ++ key ++ "`"
  | .wrongLength count expected =>
    "invalid length " ++ toString count ++ ", expected " ++ expected

namespace Leaf

def expected : Leaf → String
  | .flag => "a boolean"
  | .text => "a string"
  | .word16 => "u16"
  | .word64 => "u64"
  | .int64 => "i64"
  | .double => "f64"
  | .instant => "an RFC 3339 formatted date and time string"

/-- An integer from `lo` to `hi`. -/
def integer (l : Leaf) (lo hi : Int) : Json → Except Mismatch Int
  | .num (.int i) =>
    if lo ≤ i ∧ i ≤ hi then .ok i else .error (.wrongValue (.number (.int i)) l.expected)
  | j => .error (.wrongType (.ofJson j) l.expected)

/-- The value that a JSON value without parts denotes. -/
def ofJson : (l : Leaf) → Json → Except Mismatch l.Val
  | .flag, .bool b => .ok b
  | .text, .str s => .ok s
  | .word16, j => do
    let i ← integer .word16 0 UInt16.size.pred j
    return UInt16.ofNat i.toNat
  | .word64, j => do
    let i ← integer .word64 0 UInt64.size.pred j
    return UInt64.ofNat i.toNat
  | .int64, j => do
    let i ← integer .int64 Int64.minValue.toInt Int64.maxValue.toInt j
    return Int64.ofInt i
  | .double, .num (.double d) => .ok d
  | .double, .num (.int i) => .ok (Double.ofInt i)
  | .instant, .str s =>
    match Instant.ofText s with
    | .ok i => .ok i
    | .error f => .error (.badInstant f)
  | l, j => .error (.wrongType (.ofJson j) l.expected)

end Leaf

/-- The fields' values once nothing more follows; the first field that is missing is refused. -/
def Fields.settle : (fs : Fields) → fs.Slots → Except Mismatch fs.Vals
  | .nil, _ => .ok ()
  | .cons key _ s missing _ rest, (slot, slots) =>
    match slot.or (s.absent? missing) with
    | none => .error (.missingField key)
    | some v => do
      let vs ← rest.settle slots
      .ok (v, vs)

end Vetting.Wire
