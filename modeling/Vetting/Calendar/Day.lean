import Vetting.Calendar.Date
import Vetting.Calendar.Scan

/-!
Dates written as year, month and day with dashes between them. Blanks may stand before each
number, and month and day may have one digit.
-/

namespace Vetting.Date

open Calendar

/-- The date a text denotes. -/
def ofText? (s : String) : Option Date :=
  let read : Except Fault (Date × List Char) := do
    let (y, cs) ← Scan.year s.toList
    let (_, cs) ← Scan.char '-' cs
    let (m, cs) ← Scan.month cs
    let (_, cs) ← Scan.char '-' cs
    let (d, cs) ← Scan.day cs
    return (⟨y, m, d⟩, cs)
  match read with
  | .ok (d, []) => if d.IsValid then some d else none
  | _ => none

end Vetting.Date
