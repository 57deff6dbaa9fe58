import Vetting.Proofs.DispatchAccount

/-! # Uploads that share their numbers

The sequence numbers of an upload are those of the whole desk, so between two of its events the
latest number may change. `Dispatch.Ledger` tells what an upload has done as `Dispatch.Account`
does, strand by strand, without regard to the numbers: it is kept by `issuing`. -/

namespace Vetting.Bulk.Dispatch

/-- The history of an upload that is prepared by `t`, whatever numbers it was given. -/
inductive Ledger (t : Task (Except Refusal Plan)) : History → Dispatch → Prop where
  | preparing {p A} : p.strand ≠ .crashed → Course t A p.strand →
      Ledger t (.solo .main A) (.preparing p)
  | refused {p A r} : Course t A (.ended (.error r)) → Ledger t (.solo .main A) (.refused p r)
  | stopped {p A} : Course t A p.strand → Ledger t (.solo .main A) (.stopped p)
  | running {P plan A R B r gone} : Course t P (.ended (.ok plan)) → Run.Account plan A R B r →
      Ledger t (.solo .main P ++ (.solo .main A ++ R ++ .solo .main B)) (.running r gone)

variable {t : Task (Except Refusal Plan)} {H : History} {d d' : Dispatch}

theorem ledger_new (t : Task (Except Refusal Plan)) (shared : Shared) (now : Nat)
    (journal : List (Entry Who)) : Ledger t [] (new t shared now journal) :=
  .preparing (A := []) nofun (.rest t)

theorem Ledger.issuing (h : Ledger t H d) (n : UInt64) : Ledger t H (d.issuing n) := by
  cases h with
  | preparing hne hc => exact .preparing hne hc
  | refused hc => exact .refused hc
  | stopped hc => exact .stopped hc
  | running hc hacc => exact .running hc (hacc.of_rows rfl rfl (hacc.stage.congr rfl rfl))

/-- A run's events are told of its main strand and its rows. -/
theorem Ledger.run {P A B : List Act} {R : History} {plan : Plan} {r r' : Run} {e : Bulk.Event}
    {gone : Bool} (hc : Course t P (.ended (.ok plan))) (hacc : Run.Account plan A R B r)
    (hs : r.step? e = some r') :
    Ledger t (.solo .main P ++ (.solo .main A ++ R ++ .solo .main B) ++ r.acts e)
      (.running r' gone) := by
  cases ht : e.isTick with
  | true =>
    cases e <;> cases ht
    rw [(Run.eq_of_tick hs).1]
    rw [show r.acts (.tick _) = [] from rfl, List.append_nil]
    exact .running hc (hacc.of_rows rfl rfl (hacc.stage.congr rfl rfl))
  | false =>
    obtain ⟨A', R', B', hacc', hH⟩ := hacc.step (Run.step_of_step? hs ht)
    rw [List.append_assoc, ← hH]
    exact .running hc hacc'

theorem Ledger.step {e : Event} (h : Ledger t H d) (hs : d.step? e = some d') :
    Ledger t (H ++ d.acts e) d' := by
  cases e with
  | leave =>
    cases h with
    | preparing hne hc =>
      cases hs
      simpa [acts] using Ledger.stopped hc
    | running hc hacc =>
      cases hs
      simpa [acts] using Ledger.running hc hacc
    | refused => cases hs
    | stopped => cases hs
  | run e =>
    cases h with
    | @preparing p A hne hc =>
      obtain ⟨B, hB, hprep⟩ := prepares_of_prepare? hs
      rw [hB, ← History.solo_append]
      cases hprep with
      | went hstep hne => exact .preparing hne (hc.step hstep)
      | waited now => simpa using Ledger.preparing (p := { p with now := now }) hne hc
      | @planned plan hp =>
        rw [hp] at hc
        simpa [History.solo] using Ledger.running hc (.of_fresh (fresh_launch p plan))
      | refused hp => simpa using Ledger.refused (hp ▸ hc)
    | running hc hacc =>
      obtain ⟨r', hr', rfl⟩ := Option.map_eq_some_iff.mp hs
      exact .run hc hacc hr'
    | refused => cases hs
    | stopped => cases hs

/-- An upload that is prepared by `u` may do `H` and stand at `d`, whatever numbers it is given. -/
inductive Goes (u : Task (Except Refusal Plan)) : History → Dispatch → Prop where
  | new (shared : Shared) (now : Nat) : Goes u [] (new u shared now [])
  | step {K x e x'} (issued : UInt64) : Goes u K x → (x.issuing issued).step? e = some x' →
      Goes u (K ++ (x.issuing issued).acts e) x'

/-- **Every upload has a ledger.** -/
theorem Goes.ledger (h : Goes t H d) : Ledger t H d := by
  induction h with
  | new shared now => exact ledger_new t shared now []
  | step issued _ hs ih => exact (ih.issuing issued).step hs

end Vetting.Bulk.Dispatch
