import Vetting.Desk.Task

/-!
Tasks under way next to each other. A strand moves by itself until it waits for a reply; then the
service replies, or the strand crashes in the call.
-/

namespace Vetting

inductive Strand (α : Type) : Type where
  | ready (t : Task α)
  | waiting (c : Call) (next : c.Outcome → Task α)
  | ended (a : α)
  | crashed

/-- A call as it was made: when, and by which strand. -/
structure Entry (ω : Type) where
  time : Nat
  who : ω
  call : Call

namespace Strand

variable {α : Type}

/-- One step: the strand, what it shares, and the call it made, if it made one. -/
def move? (clock : Instant) (sh : Shared) : Strand α → Option (Strand α × Shared × Option Call)
  | .ready (.done a) => some (.ended a, sh, none)
  | .ready (.call c next) => some (.waiting c next, sh, some c)
  | .ready t => (t.local? clock sh).map fun (t, sh) => (.ready t, sh, none)
  | _ => none

def reply? (r : (c : Call) → c.Outcome) : Strand α → Option (Strand α)
  | .waiting c next => some (.ready (next (r c)))
  | _ => none

def crash? : Strand α → Option (Strand α)
  | .waiting _ _ => some .crashed
  | _ => none

def pending? : Strand α → Option Call
  | .waiting c _ => some c
  | _ => none

/-- Whether the strand has come to an end of either kind. -/
def isOver : Strand α → Bool
  | .ended _ => true
  | .crashed => true
  | _ => false

end Strand

end Vetting
