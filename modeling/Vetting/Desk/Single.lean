import Vetting.Desk.Admission

/-!
A single submission, handled as a job of one row whose answer goes back to the client. A submission
that is not valid is refused before there is a job.
-/

namespace Vetting.Single

/-- What the client is told once the row and the job have ended: the row's own failure first, then
that of its log entry, then that of the job. -/
def verdict (r : Row.Result) (final : Except ServiceError Tracking.Final) :
    Except Refusal PartnerAnswer :=
  match r.outcome with
  | .failed _ e => .error (.ofService e)
  | .invalid _ c => .error ⟨.badRequest, c.message⟩
  | .succeeded _ a =>
    match r.logError, final with
    | some e, _ => .error (.ofService e)
    | none, .error e => .error (.ofService e)
    | none, .ok _ => .ok a

def run (b : Brief) (s : Submission) : Task (Except Refusal PartnerAnswer) :=
  (Tracking.start b.job).bind fun _ =>
  (Row.handle b s).bind fun result =>
  (Tracking.attempt b.job b.total).bind fun final => .done (verdict result final)

def execute (i : Identity) (p : Product) (body : Json) : Task (Except Refusal PartnerAnswer) :=
  (Admission.subscription i p).require fun sub =>
  let s := Submission.ofJson p body
  match s.check with
  | some c => .done (.error ⟨.badRequest, c.message⟩)
  | none =>
    (Admission.grading i p).require fun _ =>
    (Admission.createJob i sub 1).require fun job =>
    run (Admission.brief i p sub job 1) s

end Vetting.Single
