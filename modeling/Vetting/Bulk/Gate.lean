/-!
The pace of a bulk run. Rows are admitted in waves of a fixed number; a wave starts no sooner than
an interval after the wave before it, and inside a wave nobody waits. Times are in milliseconds.
-/

namespace Vetting.Bulk

structure Gate where
  batch : Nat
  interval : Nat
  /-- How many rows the current wave has admitted. -/
  admitted : Nat
  waveStart : Option Nat
  deriving DecidableEq, Repr

namespace Gate

/-- A gate before its first wave. A wave admits at least one row. -/
def new (batch interval : Nat) : Gate := ⟨max batch 1, interval, 0, none⟩

inductive Decision where
  | pass (g : Gate)
  | wait (until_ : Nat)
  deriving DecidableEq, Repr

/-- Whether a row may pass at a time, or how long it has to wait. -/
def decide (g : Gate) (now : Nat) : Decision :=
  match g.waveStart with
  | none => .pass { g with waveStart := some now, admitted := g.admitted + 1 }
  | some start =>
    if g.batch ≤ g.admitted then .wait (start + g.interval)
    else .pass { g with admitted := g.admitted + 1 }

/-- The gate once a row that waited has passed: a new wave. -/
def restart (g : Gate) (now : Nat) : Gate := { g with waveStart := some now, admitted := 1 }

/-- When a row that arrives at a time passes, if waits end when they are over. -/
def arrive (g : Gate) (now : Nat) : Nat × Gate :=
  match g.decide now with
  | .pass g => (now, g)
  | .wait due => (max now due, g.restart (max now due))

end Gate

end Vetting.Bulk
