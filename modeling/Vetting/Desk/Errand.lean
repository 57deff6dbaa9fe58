import Vetting.Desk.Strand

/-!
Errands: a task that a strand of its own carries out, such as a single submission. What is given out
by number is shared with the rest of the desk; all else is the errand's own.
-/

namespace Vetting

structure Errand (α : Type) where
  strand : Strand α
  shared : Shared

namespace Errand

inductive Event where
  /-- The strand takes its next step; the clock shows `clock`. -/
  | move (clock : Instant)
  /-- The services reply to the call that the strand waits for. -/
  | reply (r : (c : Call) → c.Outcome)
  /-- The call that the strand waits for crashes. -/
  | crash

variable {α : Type}

def new (t : Task α) (issued : UInt64) : Errand α := ⟨.ready t, ⟨issued, false, []⟩⟩

/-- What becomes of an errand by one event; `none` if the event is not possible. -/
def step? (e : Errand α) : Event → Option (Errand α)
  | .move clock => (e.strand.move? clock e.shared).map fun (s, sh, _) => ⟨s, sh⟩
  | .reply r => (e.strand.reply? r).map fun s => { e with strand := s }
  | .crash => e.strand.crash?.map fun s => { e with strand := s }

def steps? (e : Errand α) : List Event → Option (Errand α)
  | [] => some e
  | ev :: evs => (e.step? ev).bind (·.steps? evs)

def issuing (e : Errand α) (n : UInt64) : Errand α :=
  { e with shared := { e.shared with issued := n } }

end Errand

end Vetting
