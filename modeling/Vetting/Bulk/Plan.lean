import Vetting.Desk.Admission

/-!
The plan of a bulk run. A plan comes into being only if the tenant subscribes to the product, the
upload can be read and has rows, a metered tenant has quota for all of them, and a scored product
has grades; then its job is created. The first of these that fails refuses the upload.
-/

namespace Vetting.Bulk

open Text (Bytes)

/-- How fast rows are sent: rows in a wave, milliseconds between waves, and how many rows may be
under way at once. -/
structure Pace where
  batch : Nat
  interval : Nat
  cap : Option Nat
  deriving DecidableEq, Repr

/-- The most permits that can be given out. -/
def Pace.maxCap : Nat := 0x1fffffffffffffff

/-- Whether there are as many permits as the cap asks for. -/
def Pace.capFits (p : Pace) : Bool := p.cap.all (· ≤ maxCap)

structure Plan where
  brief : Brief
  submissions : List Submission
  pace : Pace
  deriving Repr

namespace Plan

def dataRows (p : Product) (csv : Bytes) : Except Upload.Fault (List (List String)) :=
  match Upload.read csv p.header with
  | .error f => .error f
  | .ok rows => if rows.tail.isEmpty then .error .noDataRows else .ok rows.tail

def quotaExceeded : Refusal := ⟨.forbidden, "quota exceeded"⟩

/-- A metered tenant needs quota for every row. -/
def quota (i : Identity) (s : Subscription) (rows : Nat) : Task (Except Refusal Unit) :=
  if i.isMetered then
    .call (.quota ⟨i.member, i.company, s.id, i.quotaType⟩) fun
      | .error e => .done (.error (.ofService e))
      | .ok remaining =>
        .done (if Int64.toInt remaining < (rows : Int) then .error quotaExceeded else .ok ())
  else .done (.ok ())

def prepare (i : Identity) (p : Product) (pace : Pace) (csv : Bytes) : Task (Except Refusal Plan) :=
  (Admission.subscription i p).require fun sub =>
  match dataRows p csv with
  | .error f => .done (.error (.ofUpload f))
  | .ok rows =>
    let total := UInt64.ofNat rows.length
    (quota i sub rows.length).require fun _ =>
    (Admission.grading i p).require fun _ =>
    (Admission.createJob i sub total).require fun job =>
    .count (.jobCreated p) (.done (.ok
      ⟨Admission.brief i p sub job total, rows.map (Submission.ofRow p), pace⟩))

end Plan

end Vetting.Bulk
