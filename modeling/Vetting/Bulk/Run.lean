import Vetting.Bulk.Gate
import Vetting.Bulk.Plan
import Vetting.Desk.Strand

/-!
A bulk run as a machine. Its main strand writes the job as in progress, sets up the permits if rows
are capped (which crashes it if there cannot be so many), lets one row after the other pass the
gate, takes a permit for it, and starts it as a strand of its own; when all rows are over it
finalizes the job. Which strand moves next, when replies come and what they are, which calls crash
and how fast time passes is left open: `step?` tells what a run becomes by one event, and any
sequence of events it accepts is a possible course.
-/

namespace Vetting.Bulk

inductive Who where
  | main
  | row (i : Nat)
  deriving DecidableEq, Repr

/-- A row that has been started. -/
structure RowState where
  submission : Submission
  strand : Strand Row.Result
  /-- Whether the main strand has taken note of the row's end. -/
  joined : Bool

inductive Phase where
  | starting (s : Strand (Except ServiceError Unit))
  /-- The rows in `rest` are still to be started; the first of them comes to the gate. -/
  | admitting (rest : List Submission)
  | pausing (due : Nat) (rest : List Submission)
  /-- The first row in `rest` has passed the gate. -/
  | acquiring (rest : List Submission)
  | joining
  | finalizing (s : Strand (Except ServiceError Tracking.Final))
  | over (r : Except ServiceError Tracking.Final)
  | crashed

structure Run where
  plan : Plan
  phase : Phase
  gate : Gate
  /-- Permits left, if rows are capped. -/
  permits : Option Nat
  /-- The rows started, in the order of the upload. -/
  rows : List RowState
  shared : Shared
  now : Nat
  /-- The calls made, the latest first. -/
  journal : List (Entry Who)

inductive Event where
  /-- A strand takes its next step; the clock shows `clock`. -/
  | move (w : Who) (clock : Instant)
  /-- The services reply to the call that a strand waits for. -/
  | reply (w : Who) (r : (c : Call) → c.Outcome)
  /-- The call that a strand waits for crashes, and the strand with it. -/
  | crash (w : Who)
  /-- The main strand takes note that a row is over. -/
  | join (i : Nat)
  | tick (now : Nat)

namespace Run

def new (plan : Plan) (issued : UInt64) (now : Nat) : Run where
  plan := plan
  phase := .starting (.ready (Tracking.start plan.brief.job))
  gate := Gate.new plan.pace.batch plan.pace.interval
  permits := plan.pace.cap
  rows := []
  shared := ⟨issued, false, []⟩
  now := now
  journal := []

def note (r : Run) (w : Who) : Option Call → Run
  | none => r
  | some c => { r with journal := ⟨r.now, w, c⟩ :: r.journal }

def counting (r : Run) (m : Metric) : Run :=
  { r with shared := { r.shared with counted := m :: r.shared.counted } }

def spawn (r : Run) (s : Submission) (rest : List Submission) : Run :=
  { r.counting .rowSent with
    rows := r.rows ++ [⟨s, .ready (Row.handle r.plan.brief s), false⟩], phase := .admitting rest }

def moveMain? (r : Run) (clock : Instant) : Option Run :=
  match r.phase with
  | .starting (.ended _) =>
    let phase := if r.plan.pace.capFits then .admitting r.plan.submissions else .crashed
    some { r with phase := phase }
  | .starting s =>
    (s.move? clock r.shared).map fun (s, sh, c) =>
      { r.note .main c with phase := .starting s, shared := sh }
  | .admitting [] => some { r with phase := .joining }
  | .admitting (s :: rest) =>
    match r.gate.decide r.now with
    | .pass g => some { r with gate := g, phase := .acquiring (s :: rest) }
    | .wait due => some { r with phase := .pausing due (s :: rest) }
  | .pausing due rest =>
    if due ≤ r.now then some { r with gate := r.gate.restart r.now, phase := .acquiring rest }
    else none
  | .acquiring [] => some { r with phase := .joining }
  | .acquiring (s :: rest) =>
    match r.permits with
    | none => some (r.spawn s rest)
    | some 0 => none
    | some (n + 1) => some ({ r with permits := some n }.spawn s rest)
  | .joining =>
    if r.rows.all (·.joined) then
      let attempt := Tracking.attempt r.plan.brief.job r.plan.brief.total
      some { r with phase := .finalizing (.ready attempt) }
    else none
  | .finalizing (.ended f) => some { r with phase := .over f }
  | .finalizing s =>
    (s.move? clock r.shared).map fun (s, sh, c) =>
      { r.note .main c with phase := .finalizing s, shared := sh }
  | .over _ => none
  | .crashed => none

def release (r : Run) : Run := { r with permits := r.permits.map (· + 1) }

/-- Replaces the strand of a row; a row that is over gives its permit back. -/
def setStrand (r : Run) (i : Nat) (row : RowState) (s : Strand Row.Result) : Run :=
  let r := { r with rows := r.rows.set i { row with strand := s } }
  if s.isOver then r.release else r

def moveRow? (r : Run) (i : Nat) (clock : Instant) : Option Run :=
  (r.rows[i]?).bind fun row =>
  (row.strand.move? clock r.shared).map fun (s, sh, c) =>
    { (r.note (.row i) c).setStrand i row s with shared := sh }

/-- What becomes of a run by one event; `none` if the event is not possible. -/
def step? (r : Run) : Event → Option Run
  | .move .main clock => r.moveMain? clock
  | .move (.row i) clock => r.moveRow? i clock
  | .reply .main f =>
    match r.phase with
    | .starting s => (s.reply? f).map fun s => { r with phase := .starting s }
    | .finalizing s => (s.reply? f).map fun s => { r with phase := .finalizing s }
    | _ => none
  | .reply (.row i) f =>
    (r.rows[i]?).bind fun row => (row.strand.reply? f).map fun s => r.setStrand i row s
  | .crash .main =>
    match r.phase with
    | .starting s => s.crash?.map fun _ => { r with phase := .crashed }
    | .finalizing s => s.crash?.map fun _ => { r with phase := .crashed }
    | _ => none
  | .crash (.row i) =>
    (r.rows[i]?).bind fun row => row.strand.crash?.map fun s => r.setStrand i row s
  | .join i =>
    match r.phase with
    | .joining =>
      (r.rows[i]?).bind fun row =>
        if row.joined then none
        else
          let joined := { r with rows := r.rows.set i { row with joined := true } }
          match row.strand with
          | .ended result => some (match result.fault with
              | some f => joined.counting (.rowFailed f)
              | none => joined)
          | .crashed => some joined
          | _ => none
    | _ => none
  | .tick now => if r.now ≤ now then some { r with now := now } else none

def steps? (r : Run) : List Event → Option Run
  | [] => some r
  | e :: es => (r.step? e).bind (·.steps? es)

def pending? (r : Run) : Who → Option Call
  | .main =>
    match r.phase with
    | .starting s => s.pending?
    | .finalizing s => s.pending?
    | _ => none
  | .row i => (r.rows[i]?).bind (·.strand.pending?)

end Run

/-- The outcome of a bulk run as clients are told. -/
structure Summary where
  job : UInt64
  total : UInt64
  successCount : UInt64
  status : JobStatus
  deriving DecidableEq, Repr

def Summary.ofFinal (f : Tracking.Final) : Summary := ⟨f.job, f.total, f.successCount, f.status⟩

/-- What the client of a run that is over is told. -/
def Run.answer? (r : Run) : Option (Except Refusal Summary) :=
  match r.phase with
  | .over (.ok f) => some (.ok (.ofFinal f))
  | .over (.error e) => some (.error (.ofService e))
  | .crashed => some (.error ⟨.internal, "bulk run did not complete"⟩)
  | _ => none

end Vetting.Bulk
