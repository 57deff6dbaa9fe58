import Vetting.Desk.Tracking

/-!
Handling one submission of a job: it is checked, its product is asked, and what became of it is
logged.
-/

namespace Vetting.Row

inductive Outcome where
  /-- The submission was not valid, and no product was asked. -/
  | invalid (transactionId : String) (c : Complaint)
  | succeeded (transactionId : String) (a : PartnerAnswer)
  | failed (transactionId : String) (e : ServiceError)

def Outcome.transactionId : Outcome → String
  | .invalid id _ => id
  | .succeeded id _ => id
  | .failed id _ => id

structure Result where
  outcome : Outcome
  /-- Why the log entry was not written. -/
  logError : Option ServiceError

def errorOf {α : Type} : Except ServiceError α → Option ServiceError
  | .ok _ => none
  | .error e => some e

/-- Writes an entry of the desk's own and ends with the outcome for it. -/
def log (b : Brief) (s : Submission) (r : Logbook.Remark) (requestTime : Instant)
    (outcome : String → Outcome) : Task Result :=
  (Logbook.entry b s r requestTime).bind fun e =>
    .call (.writeLog e) fun reply => .done ⟨outcome e.transactionId, errorOf reply⟩

/-- Records a success: in the partner's entry if there is one, else in one of the desk's own. -/
def recordSuccess (b : Brief) (s : Submission) (a : PartnerAnswer) (requestTime : Instant) :
    Task Result :=
  let partnerId := if b.product.logsOwnSuccess then none else a.transactionId
  match partnerId with
  | some id =>
    .call (.confirmLog id) fun reply => .done ⟨.succeeded id a, errorOf reply⟩
  | none => log b s (Logbook.succeeded a) requestTime fun id => .succeeded id a

def handle (b : Brief) (s : Submission) : Task Result :=
  match s.check with
  | some c => .clock fun now => log b s (Logbook.invalid c.message) now fun id => .invalid id c
  | none =>
    .clock fun requestTime =>
      .call (.ask b.product.route b.caller s.toJson) fun
        | .ok a => recordSuccess b s a requestTime
        | .error e =>
          (Tracking.fail b.job).bind fun _ =>
            log b s (Logbook.failed e) requestTime fun id => .failed id e

/-- What a finished row counts as, if it did not succeed. -/
def Result.fault (r : Result) : Option RowFault :=
  match r.outcome with
  | .invalid .. => some .validation
  | .failed .. => some .service
  | .succeeded .. => none

end Vetting.Row
