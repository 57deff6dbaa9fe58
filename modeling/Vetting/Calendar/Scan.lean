import Vetting.Text.Blank
import Vetting.Text.Digits

/-!
Reading the numbers of dates and times from the front of a text. Blanks before a number are passed
over. Every reader answers its value and the text that is left.
-/

namespace Vetting.Calendar

/-- Why a text is no date or time. -/
inductive Fault where
  | outOfRange
  | impossible
  | invalid
  | tooShort
  | tooLong
  deriving DecidableEq, Repr

def Fault.message : Fault → String
  | .outOfRange => "input is out of range"
  | .impossible => "no possible date and time matching input"
  | .invalid => "input contains invalid characters"
  | .tooShort => "premature end of input"
  | .tooLong => "trailing input"

/-- Reads one value from the front of a text. -/
abbrev Scan (α : Type) := List Char → Except Fault (α × List Char)

namespace Scan

def skipBlanks (cs : List Char) : List Char := cs.dropWhile Text.isBlank

/-- At most `width` digits, and at least one; a number beyond 63 bits is out of range. -/
def digits (width : Nat) (cs : List Char) : Except Fault (Nat × List Char) :=
  match cs with
  | [] => .error .tooShort
  | c :: _ =>
    if Text.isDigit c then
      let ds := (cs.take width).takeWhile Text.isDigit
      let n := Text.ofDigits ds
      if n < Nat.pow 2 63 then .ok (n, cs.drop ds.length) else .error .outOfRange
    else .error .invalid

/-- A number of at most `width` digits from `lo` to `hi`. -/
def number (width lo hi : Nat) : Scan Nat := fun cs => do
  let (n, rest) ← digits width (skipBlanks cs)
  if lo ≤ n ∧ n ≤ hi then .ok (n, rest) else .error .outOfRange

def yearBound : Nat := Nat.pow 2 31

/-- A year: four digits at most, or any number of digits after a sign. -/
def year : Scan Int := fun cs =>
  match skipBlanks cs with
  | '-' :: rest => do
    let (n, rest) ← digits rest.length rest
    if n ≤ yearBound then .ok (-(n : Int), rest) else .error .outOfRange
  | '+' :: rest => do
    let (n, rest) ← digits rest.length rest
    if n < yearBound then .ok ((n : Int), rest) else .error .outOfRange
  | rest => do
    let (n, rest) ← digits 4 rest
    .ok ((n : Int), rest)

def month : Scan Nat := number 2 1 12

def day : Scan Nat := number 2 1 31

/-- Exactly this character. -/
def char (c : Char) : Scan Unit
  | [] => .error .tooShort
  | d :: rest => if d = c then .ok ((), rest) else .error .invalid

end Scan

end Vetting.Calendar
