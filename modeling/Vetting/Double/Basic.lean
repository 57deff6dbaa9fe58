/-!
Finite binary64 numbers as data: `±mant · 2^exp`, in the one form in which the significand is as
large as the exponent's range allows. The operations round exact rational results to the nearest
number, a tie to the even significand, and answer `none` where the result is too large.
-/

namespace Vetting

structure Double where
  neg : Bool
  mant : Nat
  exp : Int
  deriving DecidableEq, Repr, Inhabited

namespace Double

def minExp : Int := -1074

def maxExp : Int := 971

def zero (neg : Bool) : Double := ⟨neg, 0, minExp⟩

/-- The form every operation returns: the significand has 53 bits unless the number is subnormal. -/
def Canonical (d : Double) : Prop :=
  minExp ≤ d.exp ∧ d.exp ≤ maxExp ∧ d.mant < Nat.pow 2 53 ∧ (Nat.pow 2 52 ≤ d.mant ∨ d.exp = minExp)

/-- `num / den` rounded to an integer, a half to the even neighbour. -/
def roundHalfEven (num den : Nat) : Nat :=
  let q := num / den
  let r := num % den
  if 2 * r < den then q
  else if 2 * r > den then q + 1
  else if q % 2 = 0 then q else q + 1

/-- The exponent of the last bit kept of `num / den`, before rounding. -/
def exponentOf (num den : Nat) : Int :=
  let guess : Int := (num.log2 : Int) - (den.log2 : Int) - 52
  -- The guess is exact or one too large.
  let fits : Bool :=
    if 0 ≤ guess then den * Nat.pow 2 (52 + guess.toNat) ≤ num
    else den * Nat.pow 2 52 ≤ num * Nat.pow 2 (-guess).toNat
  max minExp (if fits then guess else guess - 1)

/-- `num / den · 2^shift` rounded to the nearest number. -/
def ofRatio? (neg : Bool) (num den : Nat) : Option Double :=
  if num = 0 then some (zero neg)
  else
    let e := exponentOf num den
    let m := if 0 ≤ e then roundHalfEven num (den * Nat.pow 2 e.toNat)
      else roundHalfEven (num * Nat.pow 2 (-e).toNat) den
    let d : Double := if m = Nat.pow 2 53 then ⟨neg, Nat.pow 2 52, e + 1⟩ else ⟨neg, m, e⟩
    if d.exp > maxExp then none else some d

def ofNat (n : Nat) : Double := (ofRatio? false n 1).getD (zero false)

def ofInt (i : Int) : Double := (ofRatio? (i < 0) i.natAbs 1).getD (zero false)

/-- The magnitude as a fraction. -/
def ratio (d : Double) : Nat × Nat :=
  if 0 ≤ d.exp then (d.mant * Nat.pow 2 d.exp.toNat, 1) else (d.mant, Nat.pow 2 (-d.exp).toNat)

def mul? (a b : Double) : Option Double :=
  let (an, ad) := a.ratio
  let (bn, bd) := b.ratio
  ofRatio? (a.neg != b.neg) (an * bn) (ad * bd)

/-- The quotient by a number other than zero. -/
def div? (a b : Double) : Option Double :=
  let (an, ad) := a.ratio
  let (bn, bd) := b.ratio
  ofRatio? (a.neg != b.neg) (an * bd) (ad * bn)

def powerOfTen (k : Nat) : Double := ofNat (Nat.pow 10 k)

/-- How a number with at most 19 significant digits and a decimal exponent is read: the
significand is rounded first and then scaled by a rounded power of ten, in steps of at most
10^308. `none` when it is too large. -/
def scaled? (significand : Nat) (exponent : Int) : Option Double :=
  let rec scale (fuel : Nat) (f : Double) (e : Int) : Option Double :=
    if e.natAbs ≤ 308 then
      if 0 ≤ e then f.mul? (powerOfTen e.natAbs) else f.div? (powerOfTen e.natAbs)
    else if f.mant = 0 then some f
    else if 0 ≤ e then none
    else
      match fuel with
      | 0 => some (zero false)
      | fuel + 1 => ((f.div? (powerOfTen 308)).bind fun g => scale fuel g (e + 308))
  -- Two steps by 10^308 take any significand of 64 bits to zero.
  scale 4 (ofNat significand) exponent

def negate (d : Double) : Double := { d with neg := !d.neg }

end Double

end Vetting
