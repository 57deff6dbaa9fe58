import Vetting.Calendar.Date
import Vetting.Calendar.Scan

/-!
Instants: seconds since 1970-01-01T00:00:00 UTC with a fraction in nanoseconds. A fraction of one
second or more stands for a leap second, which shares the number of the second before it. Texts
with any offset are read; instants are written in UTC with as many groups of three fraction digits
as they need.
-/

namespace Vetting

structure Instant where
  second : Int
  nano : Nat
  deriving DecidableEq, Repr, Inhabited

namespace Instant

open Calendar

def daySeconds : Int := 86400

def nanosPerSecond : Nat := 1000000000

/-- A date and a time of day, as they stand in a text. -/
structure Reading where
  date : Date
  hour : Nat
  minute : Nat
  second : Nat
  nano : Nat

/-- The fraction of a second, if there is one; digits beyond the ninth are passed over. -/
def scanFraction : Scan Nat
  | '.' :: rest => do
    let (n, after) ← Scan.digits 9 rest
    let count := rest.length - after.length
    .ok (n * Nat.pow 10 (9 - count), after.dropWhile Text.isDigit)
  | cs => .ok (0, cs)

def scanReading : Scan Reading := fun cs => do
  let (y, cs) ← Scan.year cs
  let (_, cs) ← Scan.char '-' (Scan.skipBlanks cs)
  let (m, cs) ← Scan.month cs
  let (_, cs) ← Scan.char '-' (Scan.skipBlanks cs)
  let (d, cs) ← Scan.day cs
  let cs ← match cs with
    | [] => .error .tooShort
    | c :: rest => if c = 'T' ∨ c = 't' ∨ c = ' ' then .ok rest else .error .invalid
  let (hour, cs) ← Scan.number 2 0 23 cs
  let (_, cs) ← Scan.char ':' (Scan.skipBlanks cs)
  let (minute, cs) ← Scan.number 2 0 59 cs
  let (_, cs) ← Scan.char ':' (Scan.skipBlanks cs)
  let (second, cs) ← Scan.number 2 0 60 cs
  let (nano, cs) ← scanFraction cs
  return (⟨⟨y, m, d⟩, hour, minute, second, nano⟩, cs)

def twoDigitNumber? (a b : Char) : Option Nat :=
  match Text.digit? a, Text.digit? b with
  | some x, some y => some (x * 10 + y)
  | _, _ => none

/-- The offset's hours and minutes in seconds, after its sign. -/
def scanOffset (sign : Int) : Scan Int := fun cs => do
  let (hours, cs) ← match cs with
    | a :: b :: rest =>
      match twoDigitNumber? a b with
      | some n => .ok (n, rest)
      | none => .error .invalid
    | _ => if (String.ofList cs).utf8ByteSize < 2 then .error .tooShort else .error .invalid
  let cs := cs.dropWhile fun c => c = ':' || Text.isBlank c
  match cs with
  | a :: b :: rest =>
    match twoDigitNumber? a b with
    | some n =>
      if n < 60 then .ok (sign * (hours * 3600 + n * 60 : Nat), rest) else .error .outOfRange
    | none => .error .invalid
  | _ => if (String.ofList cs).utf8ByteSize < 2 then .error .tooShort else .error .invalid

def isUtc (a b c : Char) : Bool :=
  (a = 'U' || a = 'u') && (b = 'T' || b = 't') && (c = 'C' || c = 'c')

/-- The offset from UTC in seconds. -/
def scanZone : Scan Int := fun cs =>
  let signed : List Char → Except Fault (Int × List Char)
    | 'Z' :: rest => .ok (0, rest)
    | 'z' :: rest => .ok (0, rest)
    | '+' :: rest => scanOffset 1 rest
    | '-' :: rest => scanOffset (-1) rest
    | '\u2212' :: rest => scanOffset (-1) rest
    | _ :: _ => .error .invalid
    | [] => .error .tooShort
  match cs with
  | a :: b :: c :: rest => if isUtc a b c then .ok (0, rest) else signed cs
  | _ => signed cs

/-- The bounds of the seconds that dates number. -/
def minSecond : Int := (Date.mk Date.minYear 1 1).toDays * daySeconds

def maxSecond : Int := ((Date.mk Date.maxYear 12 31).toDays + 1) * daySeconds - 1

/-- The instant of a reading whose clock is `offset` seconds ahead of UTC. A sixtieth second is
the leap second after the fifty-ninth. -/
def ofReading (r : Reading) (offset : Int) : Except Fault Instant :=
  if ¬ r.date.IsValid then .error .outOfRange
  else if offset ≤ -daySeconds ∨ daySeconds ≤ offset then .error .outOfRange
  else
    let (second, nano) :=
      if r.second = 60 then (59, r.nano + nanosPerSecond) else (r.second, r.nano)
    let s := r.date.toDays * daySeconds + (r.hour * 3600 + r.minute * 60 + second : Nat) - offset
    if minSecond ≤ s ∧ s ≤ maxSecond then .ok ⟨s, nano⟩ else .error .impossible

/-- The instant a text denotes. -/
def ofText (s : String) : Except Fault Instant := do
  let (r, cs) ← scanReading s.toList
  let (offset, cs) ← scanZone (Scan.skipBlanks cs)
  if (Scan.skipBlanks cs).isEmpty then ofReading r offset else .error .tooLong

/-- A year with four digits; years outside 0 to 9999 have a sign. -/
def renderYear (y : Int) : String :=
  if 0 ≤ y ∧ y ≤ 9999 then Text.padded 4 y.toNat
  else (if y < 0 then "-" else "+") ++ Text.padded 4 y.natAbs

def renderFraction (nano : Nat) : String :=
  if nano = 0 then ""
  else if nano % 1000000 = 0 then "." ++ Text.padded 3 (nano / 1000000)
  else if nano % 1000 = 0 then "." ++ Text.padded 6 (nano / 1000)
  else "." ++ Text.padded 9 nano

/-- The date of an instant in UTC. -/
def date (i : Instant) : Date := Date.ofDays (i.second.fdiv daySeconds)

/-- The second of an instant's day in UTC. -/
def secondOfDay (i : Instant) : Nat := (i.second.fmod daySeconds).toNat

/-- The second to write and the fraction: a leap second is written as the sixtieth. -/
def clockSecond (i : Instant) : Nat := i.secondOfDay % 60 + i.nano / nanosPerSecond

def render (i : Instant) : String :=
  let d := i.date
  let s := i.secondOfDay
  renderYear d.year ++ "-" ++ Text.twoDigits d.month ++ "-" ++ Text.twoDigits d.day ++ "T" ++
    Text.twoDigits (s / 3600) ++ ":" ++ Text.twoDigits (s / 60 % 60) ++ ":" ++
    Text.twoDigits i.clockSecond ++ renderFraction (i.nano % nanosPerSecond) ++ "Z"

/-- Date and time of day in UTC, with a blank between them and without fraction. -/
def renderPlain (i : Instant) : String :=
  let d := i.date
  let s := i.secondOfDay
  renderYear d.year ++ "-" ++ Text.twoDigits d.month ++ "-" ++ Text.twoDigits d.day ++ " " ++
    Text.twoDigits (s / 3600) ++ ":" ++ Text.twoDigits (s / 60 % 60) ++ ":" ++
    Text.twoDigits i.clockSecond

end Instant

end Vetting
