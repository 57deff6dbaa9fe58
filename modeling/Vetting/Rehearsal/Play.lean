import Vetting.Desk.Finalizer
import Vetting.Rehearsal.Script

/-!
Rehearsals of tasks that run alone: against scripted services, on a clock that only moves while a
reply is awaited.
-/

namespace Vetting.Rehearsal

structure World where
  stage : Stage
  shared : Shared
  now : Nat
  /-- The calls made, the latest first. -/
  journal : List (Entry Bulk.Who)

def World.new (stage : Stage) : World := ⟨stage, ⟨0, false, []⟩, 0, []⟩

/-- What the clock of a rehearsal shows: it starts with the year 2024. -/
def clockAt (now : Nat) : Instant :=
  ⟨1704067200 + ((now / 1000 : Nat) : Int), now % 1000 * 1000000⟩

/-- Plays a task to its end; `none` if it crashes. -/
def play {α : Type} : Task α → World → Option α × World
  | .done a, w => (some a, w)
  | .call c next, w =>
    let w := { w with journal := ⟨w.now, .main, c⟩ :: w.journal }
    let (delay, reply, stage) := w.stage.take c
    let w := { w with now := w.now + delay }
    match reply with
    | .crash => (none, { w with stage })
    | reply => play (next (stage.outcome reply c)) { w with stage := stage.absorb reply c }
  | .fresh next, w =>
    let sh := w.shared
    play (next (sh.issued + 1)) { w with shared := { sh with issued := sh.issued + 1 } }
  | .clock next, w => play (next (clockAt w.now)) w
  | .trip next, w => play (next w.shared.latch) { w with shared := { w.shared with latch := true } }
  | .latched next, w => play (next w.shared.latch) w
  | .count m next, w =>
    play next { w with shared := { w.shared with counted := m :: w.shared.counted } }

/-- Plays a finalizer until no attempt is under way. -/
def playFinalizer : Nat → Finalizer → Stage → Finalizer × Stage
  | 0, f, stage => (f, stage)
  | fuel + 1, f, stage =>
    match f.current.bind (·.2.pending?) with
    | some c =>
      let (delay, reply, stage) := stage.take c
      let events : List Finalizer.Event := [.tick (f.now + delay), .reply (stage.outcome reply)]
      match f.steps? events with
      | some f => playFinalizer fuel f (stage.absorb reply c)
      | none => (f, stage)
    | none =>
      match f.step? (.move (clockAt f.now)) with
      | some f => playFinalizer fuel f stage
      | none => (f, stage)

end Vetting.Rehearsal
