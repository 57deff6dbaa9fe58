import Vetting.Json.Cursor
import Vetting.Json.Value

/-!
Numbers in JSON texts. An integer that fits 64 bits, signed or unsigned, is kept as an integer;
every other number is a double. Digits beyond the first that 64 bits cannot hold only scale the
number. Minus zero is a double.
-/

namespace Vetting.Json.Numeral

def wordLimit : Nat := Nat.pow 2 64

def exponentLimit : Nat := Nat.pow 2 31

/-- Takes in digits until one would leave 64 bits; what is left is not used. -/
def absorb (significand : Nat) : List Nat → Nat × List Nat
  | [] => (significand, [])
  | d :: ds =>
    if significand * 10 + d < wordLimit then absorb (significand * 10 + d) ds
    else (significand, d :: ds)

def signed (negative : Bool) (d : Double) : Number :=
  .double (if negative then d.negate else d)

/-- The double with this significand and decimal exponent, read up to `c`. -/
def finish (negative : Bool) (significand : Nat) (exponent : Int) (c : Cursor) :
    Except Fault (Number × Cursor) :=
  match Double.scaled? significand exponent with
  | some d => .ok (signed negative d, c)
  | none => .error (c.here .numberOutOfRange)

/-- Takes in the digits of an exponent; `none` when it leaves 32 bits, with the place of the digit
that does so. -/
def exponentDigits : Text.Bytes → Nat → Cursor → Except Cursor (Nat × Cursor)
  | [], e, c => .ok (e, c)
  | _ :: bound, e, c =>
    match c.peek with
    | some b =>
      if Cursor.isDigit b then
        let e' := e * 10 + (b.toNat - 0x30)
        if e' < exponentLimit then exponentDigits bound e' c.skip else .error c.skip
      else .ok (e, c)
    | none => .ok (e, c)

/-- Whether an exponent is negative, and where its digits start. -/
def exponentSign (c : Cursor) : Bool × Cursor :=
  match c.peek with
  | some 0x2B => (false, c.skip)
  | some 0x2D => (true, c.skip)
  | _ => (false, c)

/-- The part after `e` or `E`, which is next. -/
def exponentPart (negative : Bool) (significand : Nat) (shift : Int) (c : Cursor) :
    Except Fault (Number × Cursor) :=
  let (down, c) := exponentSign c.skip
  match c.peek with
  | none => .error (c.here .endOfValue)
  | some b =>
    if Cursor.isDigit b then
      match exponentDigits c.rest 0 c with
      | .ok (e, c) => finish negative significand (if down then shift - e else shift + e) c
      | .error c =>
        if significand ≠ 0 ∧ !down then .error (c.here .numberOutOfRange)
        else .ok (signed negative (Double.zero false), c.digits.2)
    else .error (c.skip.here .invalidNumber)

/-- What may follow the digits of a double: an exponent. -/
def tail (negative : Bool) (significand : Nat) (shift : Int) (c : Cursor) :
    Except Fault (Number × Cursor) :=
  match c.peek with
  | some 0x65 => exponentPart negative significand shift c
  | some 0x45 => exponentPart negative significand shift c
  | _ => finish negative significand shift c

def fraction (negative : Bool) (significand : Nat) (shift : Int) (c : Cursor) :
    Except Fault (Number × Cursor) :=
  let c := c.skip
  let (ds, after) := c.digits
  match ds with
  | [] => .error (c.ahead (if c.rest.isEmpty then .endOfValue else .invalidNumber))
  | _ =>
    let (significand, unused) := absorb significand ds
    tail negative significand (shift - (ds.length - unused.length : Nat)) after

/-- An integer of 64 bits, or the double nearest to one. -/
def integer (negative : Bool) (n : Nat) : Number :=
  if negative then
    if 1 ≤ n ∧ n ≤ Nat.pow 2 63 then .int (-n) else .double (Double.ofNat n).negate
  else .int n

/-- Reads a number after its sign. -/
def read (negative : Bool) (c : Cursor) : Except Fault (Number × Cursor) :=
  match c.peek with
  | none => .error (c.here .endOfValue)
  | some first =>
    if first = 0x30 ∧ c.skip.peek.any Cursor.isDigit then
      .error (c.skip.ahead .invalidNumber)
    else if Cursor.isDigit first then
      let (ds, after) := c.digits
      let (significand, unused) := absorb 0 ds
      match after.peek with
      | some 0x2E => fraction negative significand unused.length after
      | some 0x65 => exponentPart negative significand unused.length after
      | some 0x45 => exponentPart negative significand unused.length after
      | _ =>
        if unused.isEmpty then .ok (integer negative significand, after)
        else finish negative significand unused.length after
    else .error (c.skip.here .invalidNumber)

def passExponent (c : Cursor) : Except Fault Cursor :=
  let c := (exponentSign c.skip).2
  if c.peek.any Cursor.isDigit then .ok c.digits.2 else .error (c.skip.here .invalidNumber)

/-- Passes over what may follow the digits of a double. -/
def passTail (c : Cursor) : Except Fault Cursor :=
  match c.peek with
  | some 0x65 => passExponent c
  | some 0x45 => passExponent c
  | _ => .ok c

/-- Passes over a number after its sign without looking at its size. -/
def pass (c : Cursor) : Except Fault Cursor :=
  match c.peek with
  | none => .error (c.here .invalidNumber)
  | some first =>
    if first = 0x30 ∧ c.skip.peek.any Cursor.isDigit then
      .error (c.skip.ahead .invalidNumber)
    else if Cursor.isDigit first then
      let c := c.digits.2
      match c.peek with
      | some 0x2E =>
        let c := c.skip
        if c.peek.any Cursor.isDigit then passTail c.digits.2 else .error (c.ahead .invalidNumber)
      | _ => passTail c
    else .error (c.skip.here .invalidNumber)

end Vetting.Json.Numeral
