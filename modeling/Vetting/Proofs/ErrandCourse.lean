import Vetting.Desk.Errand
import Vetting.Proofs.RunStep

/-! # What an errand has done at any time

An errand is one strand, so its history is a course of its task; nobody else sets its latch, so
the course finds the latch as it left it. -/

namespace Vetting.Errand

variable {α : Type}

/-- What the strand does by one event. -/
def acts (e : Errand α) : Event → List Act
  | .move clock => e.strand.moveActs clock e.shared
  | .reply r => e.strand.replyActs r
  | .crash => e.strand.crashActs

/-- What the strand does by a sequence of events. -/
def history (e : Errand α) : List Event → List Act
  | [] => []
  | ev :: evs =>
    match e.step? ev with
    | some e' => e.acts ev ++ e'.history evs
    | none => []

variable {t : Task α} {e e' : Errand α} {ev : Event} {A : List Act}

theorem step_of_step? (h : e.step? ev = some e') :
    e.strand.Step e.shared (e.acts ev) e'.strand e'.shared := by
  cases ev with
  | move clock =>
    obtain ⟨⟨s, sh, c⟩, hs, rfl⟩ := Option.map_eq_some_iff.mp h
    exact (Strand.step_of_move? hs).1
  | reply r =>
    obtain ⟨s, hs, rfl⟩ := Option.map_eq_some_iff.mp h
    exact Strand.step_of_reply? hs
  | crash =>
    obtain ⟨s, hs, rfl⟩ := Option.map_eq_some_iff.mp h
    exact (Strand.step_of_crash? hs).1

/-- An errand for `t` that did `A`. -/
structure Account (t : Task α) (A : List Act) (e : Errand α) : Prop where
  course : Course t A e.strand
  agrees : Agrees false A
  latch_eq : e.shared.latch = A.any Act.isTrip

theorem account_new (t : Task α) (issued : UInt64) : Account t [] (new t issued) :=
  ⟨.rest t, trivial, rfl⟩

theorem Account.issuing (h : Account t A e) (n : UInt64) : Account t A (e.issuing n) :=
  ⟨h.course, h.agrees, h.latch_eq⟩

theorem Account.step (h : Account t A e) (hs : e.step? ev = some e') :
    Account t (A ++ e.acts ev) e' := by
  have hstep := step_of_step? hs
  have hlatch := hstep.latch_eq
  have hagrees := hstep.agrees
  rw [h.latch_eq] at hlatch hagrees
  refine ⟨h.course.step hstep, agrees_append.mpr ⟨h.agrees, by simpa using hagrees⟩, ?_⟩
  rw [hlatch, List.any_append]

/-- An errand for `u` may do `A` and stand at `e`. The numbers are those of the whole desk, so the
latest one may be another before each step. -/
inductive Goes (u : Task α) : List Act → Errand α → Prop where
  | new (issued : UInt64) : Goes u [] (new u issued)
  | step {B x v x'} (issued : UInt64) : Goes u B x → (x.issuing issued).step? v = some x' →
      Goes u (B ++ (x.issuing issued).acts v) x'

theorem Goes.account (h : Goes t A e) : Account t A e := by
  induction h with
  | new issued => exact account_new t issued
  | step issued _ hs ih => exact (ih.issuing issued).step hs

/-- An errand goes as its events take it. -/
theorem goes_of_steps {issued : UInt64} {evs : List Event}
    (h : (new t issued).steps? evs = some e) : Goes t ((new t issued).history evs) e := by
  have hsame (e : Errand α) : e.issuing e.shared.issued = e := rfl
  suffices hall : ∀ evs A e₀, e₀.steps? evs = some e → Goes t A e₀ →
      Goes t (A ++ e₀.history evs) e from hall evs [] _ h (.new issued)
  intro evs
  induction evs with
  | nil =>
    intro A e₀ h hgoes
    cases h
    simpa [history] using hgoes
  | cons ev evs ih =>
    intro A e₀ h hgoes
    obtain ⟨e₁, hev, h⟩ := Option.bind_eq_some_iff.mp h
    have hgoes₁ : Goes t (A ++ e₀.acts ev) e₁ := .step e₀.shared.issued hgoes hev
    simpa [history, hev] using ih _ e₁ h hgoes₁

/-- **Every errand has an account.** -/
theorem account_of_steps {issued : UInt64} {evs : List Event}
    (h : (new t issued).steps? evs = some e) : Account t ((new t issued).history evs) e :=
  (goes_of_steps h).account

end Vetting.Errand
