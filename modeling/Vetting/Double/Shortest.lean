import Vetting.Double.Basic

/-!
The shortest decimal digits that read back as a given binary64 number, and their layout as text.
A number `m · 2^q` owns the interval of reals that round to it, its ends included when `m` is
even. For 1, 2, … 17 digits the two neighbours of the number on that decimal grid are tried; the
first grid with a hit wins, and of two hits the nearer one, or the even one if both are as near.
-/

namespace Vetting

/-- Significant digits `digits` (as a number, no trailing zero) times `10^(exponent - count + 1)`:
`exponent` is the power of ten of the first digit. -/
structure Double.Scientific where
  digits : Nat
  count : Nat
  exponent : Int
  deriving DecidableEq, Repr

namespace Double.Shortest

/-- The interval of a positive number over a common denominator: lower end, number, upper end. -/
structure Interval where
  lower : Nat
  value : Nat
  upper : Nat
  den : Nat
  closed : Bool

def interval (d : Double) : Interval :=
  -- Quarters of the last bit, because the gap below a power of two is half as wide.
  let below := if d.mant = Nat.pow 2 52 ∧ d.exp > Double.minExp then 1 else 2
  let e := d.exp - 2
  let scale := fun n => if 0 ≤ e then n * Nat.pow 2 e.toNat else n
  ⟨scale (4 * d.mant - below), scale (4 * d.mant), scale (4 * d.mant + 2),
    if 0 ≤ e then 1 else Nat.pow 2 (-e).toNat, d.mant % 2 = 0⟩

def Interval.contains (i : Interval) (num den : Nat) : Bool :=
  let x := num * i.den
  let lo := i.lower * den
  let hi := i.upper * den
  if i.closed then lo ≤ x && x ≤ hi else lo < x && x < hi

/-- `digits · 10^power` as a fraction. -/
def gridPoint (digits : Nat) (power : Int) : Nat × Nat :=
  if 0 ≤ power then (digits * Nat.pow 10 power.toNat, 1) else (digits, Nat.pow 10 (-power).toNat)

/-- The power of ten of the first digit of a positive fraction. -/
def firstPower (num den : Nat) : Int :=
  let rec up (fuel : Nat) (k : Int) : Int :=
    match fuel with
    | 0 => k
    | fuel + 1 =>
      let (n, d) := gridPoint 1 (k + 1)
      if n * den ≤ num * d then up fuel (k + 1) else k
  -- A lower bound on the logarithm, then at most a few steps up.
  let bits : Int := (num.log2 : Int) - (den.log2 : Int) - 1
  up 12 (Int.fdiv (bits * 30103) 100000 - 1)

/-- Tries the grid with `count` digits. -/
def onGrid (i : Interval) (power : Int) (count : Nat) : Option Nat :=
  let p := power - (count : Int) + 1
  let (un, ud) := gridPoint 1 p
  -- The value over the grid's unit.
  let num := i.value * ud
  let den := i.den * un
  let low := num / den
  let hit := fun n => let (a, b) := gridPoint n p; i.contains a b
  match hit low, hit (low + 1) with
  | true, true => some (Double.roundHalfEven num den)
  | true, false => some low
  | false, true => some (low + 1)
  | false, false => none

def dropZeros : Nat → Nat → Nat → Nat × Nat
  | 0, n, count => (n, count)
  | fuel + 1, n, count =>
    if n % 10 = 0 ∧ 1 < count then dropZeros fuel (n / 10) (count - 1) else (n, count)

end Double.Shortest

open Double.Shortest in
/-- The shortest digits of a positive number. -/
def Double.shortest (d : Double) : Double.Scientific :=
  let i := interval d
  let power := firstPower i.value i.den
  let rec search (fuel count : Nat) : Double.Scientific :=
    match onGrid i power count with
    | some n =>
      -- Rounding up to a power of ten adds a digit.
      let (power, count') := if n = Nat.pow 10 count then (power + 1, count + 1) else (power, count)
      let (n, count') := dropZeros 20 n count'
      ⟨n, count', power⟩
    | none =>
      match fuel with
      | 0 => ⟨0, 1, 0⟩
      | fuel + 1 => search fuel (count + 1)
  search 17 1

/-- Numbers are written positionally, always with a fraction, while the power of their first digit
is from -5 to 15; beyond that with a signed exponent and without an empty fraction. -/
def Double.render (d : Double) : String :=
  let sign := if d.neg then "-" else ""
  if d.mant = 0 then sign ++ "0.0"
  else
    let s := d.shortest
    let ds := (toString s.digits).toList
    let zeros := fun n => String.ofList (List.replicate n '0')
    if -5 ≤ s.exponent ∧ s.exponent ≤ 15 then
      if s.exponent < 0 then
        sign ++ "0." ++ zeros ((-s.exponent).toNat - 1) ++ String.ofList ds
      else
        let whole := s.exponent.toNat + 1
        if ds.length ≤ whole then sign ++ String.ofList ds ++ zeros (whole - ds.length) ++ ".0"
        else sign ++ String.ofList (ds.take whole) ++ "." ++ String.ofList (ds.drop whole)
    else
      let mantissa := match ds with
        | [] => "0"
        | [c] => String.ofList [c]
        | c :: rest => String.ofList (c :: '.' :: rest)
      let e := if s.exponent < 0 then "-" ++ toString s.exponent.natAbs
        else "+" ++ toString s.exponent.natAbs
      sign ++ mantissa ++ "e" ++ e

end Vetting
