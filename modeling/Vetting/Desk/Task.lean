import Vetting.Desk.Call
import Vetting.Desk.Metric
import Vetting.Refusal

/-!
Tasks: what the desk does step by step. Between two calls a task may take a fresh sequence number,
read the clock, look at or set its job's failure latch, and count. A task is a tree of all its
courses, so what it does can be told for every behaviour of the services.
-/

namespace Vetting

inductive Task (α : Type) : Type where
  | done (a : α)
  | call (c : Call) (next : c.Outcome → Task α)
  | fresh (next : UInt64 → Task α)
  | clock (next : Instant → Task α)
  /-- Sets the failure latch and tells whether it was set before. -/
  | trip (next : Bool → Task α)
  | latched (next : Bool → Task α)
  | count (m : Metric) (next : Task α)

namespace Task

def bind {α β : Type} (t : Task α) (f : α → Task β) : Task β :=
  match t with
  | done a => f a
  | call c next => .call c fun r => (next r).bind f
  | fresh next => .fresh fun n => (next n).bind f
  | clock next => .clock fun i => (next i).bind f
  | trip next => .trip fun b => (next b).bind f
  | latched next => .latched fun b => (next b).bind f
  | count m next => .count m (next.bind f)

instance : Monad Task where
  pure := .done
  bind := Task.bind

theorem bind_done {α : Type} (t : Task α) : t.bind .done = t := by
  induction t with
  | done => rfl
  | call c next ih => exact congrArg _ (funext ih)
  | fresh next ih => exact congrArg _ (funext ih)
  | clock next ih => exact congrArg _ (funext ih)
  | trip next ih => exact congrArg _ (funext ih)
  | latched next ih => exact congrArg _ (funext ih)
  | count m next ih => exact congrArg _ ih

theorem bind_assoc {α β γ : Type} (t : Task α) (f : α → Task β) (g : β → Task γ) :
    (t.bind f).bind g = t.bind fun a => (f a).bind g := by
  induction t with
  | done => rfl
  | call c next ih => exact congrArg _ (funext ih)
  | fresh next ih => exact congrArg _ (funext ih)
  | clock next ih => exact congrArg _ (funext ih)
  | trip next ih => exact congrArg _ (funext ih)
  | latched next ih => exact congrArg _ (funext ih)
  | count m next ih => exact congrArg _ ih

def ask (c : Call) : Task c.Outcome := .call c .done

/-- Makes one call whose failure refuses the request. -/
def demand (c : Call) : Task (Except Refusal c.Reply) :=
  .call c fun r => .done (r.mapError Refusal.ofService)

end Task

/-- What the tasks of one job share: the sequence numbers given out, the job's failure latch, and
what has been counted, the latest first. -/
structure Shared where
  issued : UInt64
  latch : Bool
  counted : List Metric
  deriving Inhabited

/-- One step of a task that needs no reply. -/
def Task.local? {α : Type} (now : Instant) (s : Shared) : Task α → Option (Task α × Shared)
  | .done _ => none
  | .call _ _ => none
  | .fresh next => some (next (s.issued + 1), { s with issued := s.issued + 1 })
  | .clock next => some (next now, s)
  | .trip next => some (next s.latch, { s with latch := true })
  | .latched next => some (next s.latch, s)
  | .count m next => some (next, { s with counted := m :: s.counted })

end Vetting
