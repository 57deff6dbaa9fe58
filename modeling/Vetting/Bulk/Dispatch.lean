import Vetting.Bulk.Run

/-!
A bulk upload from the client's request on. The plan is prepared in the client's own strand; the
run is then a strand of the desk. A client that goes away takes its preparation along, but not the
run.
-/

namespace Vetting.Bulk

structure Preparation where
  strand : Strand (Except Refusal Plan)
  shared : Shared
  now : Nat
  journal : List (Entry Who)

inductive Dispatch where
  | preparing (p : Preparation)
  | refused (p : Preparation) (r : Refusal)
  /-- The client went away before there was a job. -/
  | stopped (p : Preparation)
  | running (r : Run) (clientGone : Bool)

namespace Dispatch

inductive Event where
  | run (e : Bulk.Event)
  /-- The client goes away. -/
  | leave

def new (t : Task (Except Refusal Plan)) (shared : Shared) (now : Nat)
    (journal : List (Entry Who)) : Dispatch :=
  .preparing ⟨.ready t, shared, now, journal⟩

def launch (p : Preparation) (plan : Plan) : Run :=
  { Run.new plan p.shared.issued p.now with
    shared := { p.shared with latch := false }, journal := p.journal }

def prepare? (p : Preparation) : Bulk.Event → Option Dispatch
  | .move .main clock =>
    match p.strand with
    | .ended (.ok plan) => some (.running (launch p plan) false)
    | .ended (.error r) => some (.refused p r)
    | s => (s.move? clock p.shared).map fun (s, sh, c) =>
        .preparing { p with
          strand := s, shared := sh
          journal := match c with
            | none => p.journal
            | some c => ⟨p.now, .main, c⟩ :: p.journal }
  | .reply .main f => (p.strand.reply? f).map fun s => .preparing { p with strand := s }
  | .tick now => if p.now ≤ now then some (.preparing { p with now }) else none
  | _ => none

/-- What becomes of an upload by one event. -/
def step? (d : Dispatch) : Event → Option Dispatch
  | .leave =>
    match d with
    | .preparing p => some (.stopped p)
    | .running r _ => some (.running r true)
    | _ => none
  | .run e =>
    match d with
    | .preparing p => prepare? p e
    | .running r gone => (r.step? e).map fun r => .running r gone
    | _ => none

def steps? (d : Dispatch) : List Event → Option Dispatch
  | [] => some d
  | e :: es => (d.step? e).bind (·.steps? es)

/-- The calls made so far, the latest first. -/
def journal : Dispatch → List (Entry Who)
  | preparing p => p.journal
  | refused p _ => p.journal
  | stopped p => p.journal
  | running r _ => r.journal

def shared : Dispatch → Shared
  | preparing p => p.shared
  | refused p _ => p.shared
  | stopped p => p.shared
  | running r _ => r.shared

def issuing (d : Dispatch) (n : UInt64) : Dispatch :=
  match d with
  | preparing p => .preparing { p with shared := { p.shared with issued := n } }
  | running r gone => .running { r with shared := { r.shared with issued := n } } gone
  | d => d

def now : Dispatch → Nat
  | preparing p => p.now
  | refused p _ => p.now
  | stopped p => p.now
  | running r _ => r.now

def pending? (d : Dispatch) (w : Who) : Option Call :=
  match d, w with
  | preparing p, .main => p.strand.pending?
  | running r _, w => r.pending? w
  | _, _ => none

/-- What the client is told, if it is still there. -/
def answer? : Dispatch → Option (Except Refusal Summary)
  | refused _ r => some (.error r)
  | running r false => r.answer?
  | _ => none

end Dispatch

end Vetting.Bulk
