import Vetting.Desk.Strand
import Vetting.Desk.Tracking

/-!
Finalizing a job once. Callers come in any number and order; one attempt is made at a time, the
others wait in the order in which they came. The first attempt that succeeds answers all callers
who wait and all who come later; an attempt that fails answers only its own caller. Meanwhile others
may mark the job as failed, or note a failure, the first of which is also written to the job.
-/

namespace Vetting

/-- Who acts on a job that is finalized. -/
inductive Finalizer.Who where
  /-- A caller who asks for the job to be finalized. -/
  | caller (k : Nat)
  /-- The `i`-th of those who note a failure. -/
  | failure (i : Nat)
  /-- Those who mark the job as failed and write nothing. -/
  | marker
  deriving DecidableEq, Repr

structure Finalizer where
  job : UInt64
  total : UInt64
  /-- The job as it was finalized. -/
  record : Option Tracking.Final
  /-- The caller whose attempt is under way. -/
  current : Option (Nat × Strand (Except ServiceError Tracking.Final))
  waiting : List Nat
  /-- What callers were told, the latest first. -/
  answers : List (Nat × Except ServiceError Tracking.Final)
  /-- Those who note a failure, in the order in which they came. -/
  failures : List (Strand Unit)
  shared : Shared
  now : Nat
  /-- The calls made, the latest first. -/
  journal : List (Entry Finalizer.Who)

namespace Finalizer

inductive Event where
  /-- A caller asks for the job to be finalized. -/
  | request (caller : Nat)
  /-- The attempt under way takes its next step. -/
  | move (clock : Instant)
  /-- The service replies to the call of the attempt under way. -/
  | reply (r : (c : Call) → c.Outcome)
  /-- The job is marked as failed. -/
  | mark
  /-- Someone comes to note a failure. -/
  | fail
  | moveFailure (i : Nat) (clock : Instant)
  | replyFailure (i : Nat) (r : (c : Call) → c.Outcome)
  | tick (now : Nat)

def new (job total : UInt64) (shared : Shared) (now : Nat) : Finalizer where
  job := job
  total := total
  record := none
  current := none
  waiting := []
  answers := []
  failures := []
  shared := shared
  now := now
  journal := []

def start (f : Finalizer) (caller : Nat) : Finalizer :=
  { f with current := some (caller, .ready (Tracking.attempt f.job f.total)) }

/-- Ends the attempt of a caller. -/
def finish (f : Finalizer) (caller : Nat) : Except ServiceError Tracking.Final → Finalizer
  | .ok r => { f with
      record := some r, current := none, waiting := []
      answers := (f.waiting.map fun k => (k, .ok r)).reverse ++ (caller, .ok r) :: f.answers }
  | .error e =>
    let f := { f with current := none, answers := (caller, .error e) :: f.answers }
    match f.waiting with
    | [] => f
    | next :: rest => { f with waiting := rest }.start next

def note (f : Finalizer) (w : Who) : Option Call → Finalizer
  | none => f
  | some c => { f with journal := ⟨f.now, w, c⟩ :: f.journal }

def step? (f : Finalizer) : Event → Option Finalizer
  | .request caller =>
    match f.record with
    | some r => some { f with answers := (caller, .ok r) :: f.answers }
    | none =>
      match f.current with
      | none => some (f.start caller)
      | some _ => some { f with waiting := f.waiting ++ [caller] }
  | .move clock =>
    match f.current with
    | none => none
    | some (caller, .ended r) => some (f.finish caller r)
    | some (caller, s) =>
      (s.move? clock f.shared).map fun (s, sh, c) =>
        { f.note (.caller caller) c with current := some (caller, s), shared := sh }
  | .reply r =>
    match f.current with
    | none => none
    | some (caller, s) => (s.reply? r).map fun s => { f with current := some (caller, s) }
  | .mark => some { f with shared := { f.shared with latch := true } }
  | .fail => some { f with failures := f.failures ++ [.ready (Tracking.fail f.job)] }
  | .moveFailure i clock =>
    (f.failures[i]?).bind fun s => (s.move? clock f.shared).map fun (s, sh, c) =>
      { f.note (.failure i) c with failures := f.failures.set i s, shared := sh }
  | .replyFailure i r =>
    (f.failures[i]?).bind fun s => (s.reply? r).map fun s =>
      { f with failures := f.failures.set i s }
  | .tick now => if f.now ≤ now then some { f with now } else none

def steps? (f : Finalizer) : List Event → Option Finalizer
  | [] => some f
  | e :: es => (f.step? e).bind (·.steps? es)

end Finalizer

end Vetting
