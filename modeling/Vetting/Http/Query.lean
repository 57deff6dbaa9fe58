import Vetting.Text.Digits
import Vetting.Url.Percent

/-!
Queries of requests: names and values as a form writes them, and a typed reader of the fields that
a request may have. Other names are passed over; a field may be given once.
-/

namespace Vetting.Http.Query

open Text (Bytes)

/-- A plus sign stands for a blank; ill-formed UTF-8 is replaced. -/
def decodeText (b : Bytes) : String :=
  Text.lossy (Url.decode (b.map fun x => if x = 0x2B then 0x20 else x))

/-- The name and value of a part without ampersands. -/
def pairOf (b : Bytes) : String × String :=
  (decodeText (b.takeWhile (· ≠ 0x3D)), decodeText ((b.dropWhile (· ≠ 0x3D)).drop 1))

/-- The names and values of a query, in order. -/
def pairs (query : Bytes) : List (String × String) :=
  ((query.splitOn 0x26).filter fun b => !b.isEmpty).map pairOf

inductive Kind where
  | int64
  | text
  | flag
  deriving DecidableEq, Repr

inductive Value where
  | int (i : Int64)
  | text (s : String)
  | flag (b : Bool)
  deriving DecidableEq

inductive Fault where
  | duplicate (key : String)
  | notInteger (key : String) (e : Text.IntError)
  | notFlag (key : String)
  deriving DecidableEq, Repr

def Fault.message (f : Fault) : String :=
  "Failed to deserialize query string: " ++
    match f with
    | .duplicate key => "duplicate field \x60" ++ key ++ "\x60"
    | .notInteger key e => key ++ ": " ++ e.message
    | .notFlag key => key ++ ": provided string was not \x60true\x60 or \x60false\x60"

def minInt64 : Int := -9223372036854775808

def maxInt64 : Int := 9223372036854775807

def Kind.read (key : String) (k : Kind) (s : String) : Except Fault Value :=
  match k with
  | .text => .ok (.text s)
  | .int64 =>
    match Text.readInt minInt64 maxInt64 s with
    | .ok i => .ok (.int (Int64.ofInt i))
    | .error e => .error (.notInteger key e)
  | .flag =>
    if s = "true" then .ok (.flag true)
    else if s = "false" then .ok (.flag false)
    else .error (.notFlag key)

/-- The values of a query's fields. -/
abbrev Values := List (String × Value)

namespace Values

def int? (vs : Values) (key : String) : Option Int64 :=
  match vs.lookup key with
  | some (.int i) => some i
  | _ => none

def text? (vs : Values) (key : String) : Option String :=
  match vs.lookup key with
  | some (.text s) => some s
  | _ => none

/-- A flag that is not given is not set. -/
def flag (vs : Values) (key : String) : Bool :=
  match vs.lookup key with
  | some (.flag b) => b
  | _ => false

end Values

/-- Takes in one name and value. -/
def take (fields : List (String × Kind)) (vs : Values) (p : String × String) :
    Except Fault Values :=
  match fields.lookup p.1 with
  | none => .ok vs
  | some k =>
    if (vs.lookup p.1).isSome then .error (.duplicate p.1)
    else (k.read p.1 p.2).map fun v => vs ++ [(p.1, v)]

/-- The values of the fields in a query; of two faults the first one counts. -/
def read (fields : List (String × Kind)) (query : Bytes) : Except Fault Values :=
  (pairs query).foldlM (take fields) []

end Vetting.Http.Query
