/-!
Decimal integers as texts: the digits of a natural number, and a reader that tells the ways in
which a text can fail to be an integer of a given range.
-/

namespace Vetting.Text

def digit? (c : Char) : Option Nat :=
  if '0' ≤ c ∧ c ≤ '9' then some (c.toNat - '0'.toNat) else none

def isDigit (c : Char) : Bool := (digit? c).isSome

/-- The number that digits denote; characters that are no digits count as zero. -/
def ofDigits (cs : List Char) : Nat := cs.foldl (fun n c => n * 10 + (digit? c).getD 0) 0

/-- Why a text is no integer of the wanted range. -/
inductive IntError where
  | empty
  | invalidDigit
  | tooLarge
  | tooSmall
  deriving DecidableEq, Repr

def IntError.message : IntError → String
  | .empty => "cannot parse integer from empty string"
  | .invalidDigit => "invalid digit found in string"
  | .tooLarge => "number too large to fit in target type"
  | .tooSmall => "number too small to fit in target type"

/-- Reads `[+-]digits` as an integer from `lo` to `hi`. A minus sign is a digit like any other
invalid one where no negative number is wanted. Digits are read from the left, so a number that
leaves the range before an invalid digit is out of range. -/
def readInt (lo hi : Int) (s : String) : Except IntError Int :=
  let go (sign : Int) (cs : List Char) : Except IntError Int :=
    cs.foldlM (fun (n : Int) c =>
      match digit? c with
      | none => .error .invalidDigit
      | some d =>
        let m := n * 10 + sign * (d : Int)
        if m > hi then .error .tooLarge else if m < lo then .error .tooSmall else .ok m) 0
  match s.toList with
  | [] => .error .empty
  | ['+'] => .error .invalidDigit
  | ['-'] => .error .invalidDigit
  | '+' :: cs => go 1 cs
  | '-' :: cs => if lo < 0 then go (-1) cs else .error .invalidDigit
  | cs => go 1 cs

/-- Two digits, for the parts of a date or a time of day. -/
def twoDigits (n : Nat) : String := (if n < 10 then "0" else "") ++ toString n

/-- At least `width` digits, filled with zeros on the left. -/
def padded (width n : Nat) : String :=
  let ds := toString n
  String.ofList (List.replicate (width - ds.length) '0') ++ ds

end Vetting.Text
