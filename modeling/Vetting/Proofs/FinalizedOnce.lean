import Vetting.Proofs.FinalizerAccount
import Vetting.Proofs.RunProgress

/-! # A job is finalized once

The accounts of a finalizer say what the callers did and were told. From them it follows that the
job is written and counted once at most, whoever calls, that its record stays as it is, and that no
caller waits for ever. -/

namespace Vetting.Finalizer

variable {job total : UInt64} {f f' : Finalizer} {Q : List Nat} {X : List (Nat × Act)} {H : History}

/-! ## One write, one count -/

theorem History.filterMap_acts {β : Type} {g : Act → Option β}
    (h : ∀ x ∈ H, (∃ k, x.1 = .caller k) ∨ g x.2 = none) :
    H.acts.filterMap g = (H.attempts.map Prod.snd).filterMap g := by
  induction H with
  | nil => rfl
  | cons x H ih =>
    have ih := ih fun y hy => h y (List.mem_cons_of_mem x hy)
    simp only [History.acts, attempts] at ih
    obtain ⟨w, a⟩ := x
    cases w with
    | caller k => simp [History.acts, attempts, List.filterMap_cons, ih]
    | failure i =>
      obtain ⟨k, hk⟩ | hg := h _ List.mem_cons_self
      · cases hk
      · simpa [History.acts, attempts, List.filterMap_cons, hg] using ih
    | marker =>
      obtain ⟨k, hk⟩ | hg := h _ List.mem_cons_self
      · cases hk
      · simpa [History.acts, attempts, List.filterMap_cons, hg] using ih

theorem Attempt.map_history (a : Attempt) : a.history.map Prod.snd = a.acts := by
  simp [Attempt.history, Function.comp_def]

theorem quiet_of_failed {failed : List Attempt} (h : ∀ a ∈ failed, a.Failed job total) :
    ∀ x ∈ (failed.flatMap Attempt.history).map Prod.snd, x.Quiet := by
  intro x hx
  rw [List.map_flatMap] at hx
  obtain ⟨a, ha, hx⟩ := List.mem_flatMap.mp hx
  rw [Attempt.map_history] at hx
  obtain ⟨e, _, hclosed⟩ := h a ha
  exact quiet_of_visible hclosed.quiet x hx

theorem Standing.leaves (h : Standing job total f Q X) :
    (closingsOf (X.map Prod.snd)).length ≤ 1 ∧ (metricsOf (X.map Prod.snd)).length ≤ 1 ∧
      ∀ r, f.record = some r → closingsOf (X.map Prod.snd) = [r.written] ∧
        metricsOf (X.map Prod.snd) = [.jobFinalized r.status] := by
  cases h with
  | idle failed hr _ _ hf _ _ hX =>
    have hquiet := quiet_of_failed hf
    rw [hX, closingsOf_quiet hquiet, metricsOf_quiet hquiet, hr]
    exact ⟨Nat.zero_le 1, Nat.zero_le 1, nofun⟩
  | @attempting failed k s A hr _ _ hcourse hf _ _ hX =>
    have hquiet := quiet_of_failed hf
    have hA : (A.map (k, ·)).map Prod.snd = A := by simp [Function.comp_def]
    have hleaves := (Tracking.closing_of_course hcourse).leaves
    rw [closingsOf_visible, metricsOf_visible] at hleaves
    rw [hX, List.map_append, closingsOf_append, metricsOf_append, closingsOf_quiet hquiet,
      metricsOf_quiet hquiet, hA, hr]
    exact ⟨hleaves.1, hleaves.2, nofun⟩
  | @finalized failed last later r hr _ _ hf hlast _ _ hX =>
    have hquiet := quiet_of_failed hf
    obtain ⟨hclosings, hmetrics⟩ := hlast.2.leaves
    rw [closingsOf_visible] at hclosings
    rw [metricsOf_visible] at hmetrics
    rw [hX, List.map_append, closingsOf_append, metricsOf_append, closingsOf_quiet hquiet,
      metricsOf_quiet hquiet, Attempt.map_history, hclosings, hmetrics, hr]
    refine ⟨Nat.le_refl 1, Nat.le_refl 1, ?_⟩
    intro r' hr'
    cases hr'
    exact ⟨rfl, rfl⟩

/-- What is written and counted by all is what the callers write and count. -/
theorem Account.leaves (h : Account job total Q H f) :
    closingsOf H.acts = closingsOf (H.attempts.map Prod.snd) ∧
      metricsOf H.acts = metricsOf (H.attempts.map Prod.snd) :=
  ⟨History.filterMap_acts fun x hx => (h.others x hx).imp_right And.left,
    History.filterMap_acts fun x hx => (h.others x hx).imp_right And.right⟩

/-- **A job that has been finalized stays as it is**: later callers are told the same, and no call
is made for them. -/
theorem kept_of_steps {r : Tracking.Final} {es : List Event} (hrecord : f.record = some r)
    (hcurrent : f.current = none) (h : f.steps? es = some f') :
    f'.record = some r ∧ (f.history es).attempts = [] ∧
      f'.answers = ((requests es).map (·, .ok r)).reverse ++ f.answers := by
  have hkept := steps_induction (P := fun Q H f' => f'.record = some r ∧ f'.current = none ∧
    H.attempts = [] ∧ f'.answers = (Q.map (·, .ok r)).reverse ++ f.answers) h
    ⟨hrecord, hcurrent, rfl, rfl⟩ ?_
  · exact ⟨hkept.1, hkept.2.2⟩
  rintro Q H g e X g' ⟨hr, hc, hH, ha⟩ hs
  cases hs with
  | answered hr' =>
    rw [hr] at hr'
    cases hr'
    exact ⟨hr, hc, by simp [hH], by simp [ha, Event.caller?]⟩
  | started hr' => rw [hr] at hr'; cases hr'
  | queued hr' => rw [hr] at hr'; cases hr'
  | attempt _ hc' => rw [hc] at hc'; cases hc'
  | finished hc' => rw [hc] at hc'; cases hc'
  | failure he =>
    rw [Event.caller?_of_isFailure he]
    exact ⟨hr, hc, by simp [hH], by simpa using ha⟩
  | marked => exact ⟨hr, hc, by simpa [History.attempts] using hH, by simpa [Event.caller?] using ha⟩
  | noticed | ticked => exact ⟨hr, hc, by simp [hH], by simpa [Event.caller?] using ha⟩

/-! ## Every caller is answered -/

/-- A finalizer whose attempts have at most `n` steps left, those of callers who wait included: 8
for each attempt, and one more to end it. -/
def Within (n : Nat) (f : Finalizer) : Prop :=
  match f.current with
  | none => f.waiting = []
  | some (_, s) => ∃ m, s.Within m ∧ m + 1 + 9 * f.waiting.length ≤ n

variable {n : Nat}

theorem within_of_current {k : Nat} {s : Strand (Except ServiceError Tracking.Final)}
    (hcurrent : f.current = some (k, s)) :
    f.Within n ↔ ∃ m, s.Within m ∧ m + 1 + 9 * f.waiting.length ≤ n := by
  simp [Within, hcurrent]

theorem within_of_none (hcurrent : f.current = none) : f.Within n ↔ f.waiting = [] := by
  simp [Within, hcurrent]

theorem start_within {k : Nat} (h : 9 + 9 * f.waiting.length ≤ n) : (f.start k).Within n :=
  ⟨8, Tracking.attempt_within _ _, h⟩

theorem Within.finish (h : f.Within n) {k : Nat} {r : Except ServiceError Tracking.Final}
    (hcurrent : f.current = some (k, .ended r)) : 0 < n ∧ (f.finish k r).Within (n - 1) := by
  obtain ⟨m, _, hle⟩ := (within_of_current hcurrent).mp h
  refine ⟨by omega, ?_⟩
  cases r with
  | ok r => exact rfl
  | error e =>
    unfold Finalizer.finish
    cases hw : f.waiting with
    | nil => exact rfl
    | cons next rest =>
      rw [hw, List.length_cons] at hle
      exact start_within (by dsimp only; omega)

theorem Within.congr (h : f.Within n) (hcurrent : f'.current = f.current)
    (hwaiting : f'.waiting = f.waiting) : f'.Within n := by
  unfold Within at h ⊢
  rw [hcurrent, hwaiting]
  exact h

theorem Within.mono (h : f.Within n) {m : Nat} (hle : n ≤ m) : f.Within m := by
  cases hc : f.current with
  | none => exact (within_of_none hc).mpr ((within_of_none hc).mp h)
  | some x =>
    obtain ⟨m', hm, hle'⟩ := (within_of_current hc).mp h
    exact (within_of_current hc).mpr ⟨m', hm, by omega⟩

/-- **An attempt has less to do after each of its steps**, and a caller who comes adds no more than
one attempt. -/
theorem Step.within {e : Event} {X : History} (h : Step f e X f') (hn : f.Within n) :
    (e.isAttempt = true → 0 < n ∧ f'.Within (n - 1)) ∧
      (e.isAttempt = false → f'.Within (n + 9 * e.caller?.toList.length)) := by
  cases h with
  | answered hr =>
    have hsame : Within n { f with answers := _ } := hn.congr rfl rfl
    exact ⟨fun h => (by cases h), fun _ => hsame.mono (Nat.le_add_right n _)⟩
  | started _ hc =>
    have hw := (within_of_none hc).mp hn
    refine ⟨fun h => (by cases h), fun _ => start_within ?_⟩
    simp [hw, Event.caller?]
  | @queued k x _ hc =>
    obtain ⟨m, hm, hle⟩ := (within_of_current hc).mp hn
    refine ⟨fun h => (by cases h), fun _ => (within_of_current (by exact hc)).mpr ⟨m, hm, ?_⟩⟩
    simp only [Event.caller?, Option.toList_some, List.length_append, List.length_singleton]
    omega
  | attempt he hc hs =>
    obtain ⟨m, hm, hle⟩ := (within_of_current hc).mp hn
    obtain ⟨hpos, hm'⟩ := hs.within hm
    refine ⟨fun _ => ⟨by omega, m - 1, hm', by dsimp only; omega⟩, fun hno => ?_⟩
    rw [he] at hno
    cases hno
  | finished hc => exact ⟨fun _ => hn.finish hc, fun h => by cases h⟩
  | failure he =>
    refine ⟨fun hyes => ?_, fun _ => ?_⟩
    · rw [Event.isAttempt_of_isFailure he] at hyes
      cases hyes
    · rw [Event.caller?_of_isFailure he]
      exact hn.congr rfl rfl
  | marked | noticed | ticked => exact ⟨fun h => (by cases h), fun _ => hn.congr rfl rfl⟩

theorem exists_within_of_steps {shared : Shared} {now : Nat} {es : List Event}
    (h : (new job total shared now).steps? es = some f) : ∃ n, f.Within n := by
  refine steps_induction (P := fun _ _ f => ∃ n, f.Within n) h ⟨0, rfl⟩ ?_
  rintro _ _ f e X f' ⟨n, hn⟩ hs
  obtain ⟨hless, hmore⟩ := hs.within hn
  cases he : e.isAttempt with
  | true => exact ⟨_, (hless he).2⟩
  | false => exact ⟨_, hmore he⟩

theorem countP_isAttempt_le {es : List Event} (hn : f.Within n) (h : f.steps? es = some f') :
    es.countP Event.isAttempt ≤ n + 9 * (requests es).length := by
  induction es generalizing f n with
  | nil => simp
  | cons e es ih =>
    obtain ⟨f₁, he, h⟩ := Option.bind_eq_some_iff.mp h
    obtain ⟨hless, hmore⟩ := (step_of_step? he).within hn
    rw [requests_cons, List.length_append, List.countP_cons]
    cases ha : e.isAttempt with
    | true =>
      obtain ⟨hpos, hn₁⟩ := hless ha
      have := ih hn₁ h
      simp only [if_true]
      omega
    | false =>
      have := ih (hmore ha) h
      simp only [Bool.false_eq_true, if_false]
      omega

/-- As long as an attempt is under way, it can go on. -/
theorem Account.goes_on (h : Account job total Q H f) {x : Nat × Strand (Except ServiceError
    Tracking.Final)} (hcurrent : f.current = some x) (clock : Instant)
    (g : (c : Call) → c.Outcome) :
    ∃ e, (f.step? e).isSome = true ∧ (e = .move clock ∨ e = .reply g) := by
  obtain ⟨k, s⟩ := x
  obtain ⟨_, _, _, hne, _⟩ := h.standing.under_way hcurrent
  cases hover : s.isOver with
  | true =>
    cases s with
    | ended r => exact ⟨.move clock, by simp [step?, hcurrent], .inl rfl⟩
    | crashed => exact absurd rfl hne
    | ready | waiting => cases hover
  | false =>
    rcases Strand.can_step hover clock f.shared g with ⟨y, hs⟩ | ⟨s', hs⟩
    · refine ⟨.move clock, ?_, .inl rfl⟩
      cases s <;> cases hover <;> simp [step?, hcurrent, hs]
    · exact ⟨.reply g, by simp [step?, hcurrent, hs], .inr rfl⟩

/-- **The attempts come to their end** from wherever they stand, whatever the services reply. -/
theorem Account.comes_to_rest (h : Account job total Q H f) (hn : f.Within n) (clock : Instant)
    (g : (c : Call) → c.Outcome) :
    ∃ gs f', f.steps? gs = some f' ∧ (∀ e ∈ gs, e = .move clock ∨ e = .reply g) ∧
      f'.current = none := by
  induction n generalizing f Q H with
  | zero =>
    cases hc : f.current with
    | none => exact ⟨[], f, rfl, by simp, hc⟩
    | some x =>
      obtain ⟨m, _, hle⟩ := (within_of_current hc).mp hn
      omega
  | succ n ih =>
    cases hc : f.current with
    | none => exact ⟨[], f, rfl, by simp, hc⟩
    | some x =>
      obtain ⟨e, hsome, hkind⟩ := h.goes_on hc clock g
      obtain ⟨f₁, he⟩ := Option.isSome_iff_exists.mp hsome
      have hattempt : e.isAttempt = true := by rcases hkind with rfl | rfl <;> rfl
      have hs := step_of_step? he
      obtain ⟨_, hn₁⟩ := (hs.within hn).1 hattempt
      obtain ⟨gs, f', hgs, hcalm, hrest⟩ := ih (h.step hs) hn₁
      refine ⟨e :: gs, f', by simp [steps?, he, hgs], ?_, hrest⟩
      intro e' he'
      rcases List.mem_cons.mp he' with rfl | he'
      · exact hkind
      · exact hcalm e' he'

/-- When no attempt is under way, every caller who came has been answered. -/
theorem Standing.all_answered (h : Standing job total f Q X) (hcurrent : f.current = none) :
    f.answers.reverse.map Prod.fst = Q := by
  cases h with
  | idle failed _ _ _ _ ha hQ =>
    rw [ha, hQ, List.map_map]
    rfl
  | attempting _ _ hc => rw [hcurrent] at hc; cases hc
  | finalized failed last later _ _ _ _ _ ha hQ =>
    rw [ha, hQ, List.map_append, List.map_map, List.map_cons, List.map_map]
    simp [Function.comp_def, Attempt.answer]

/-- All that has been done by when the callers `Q` have come, `H` has been done, and the finalizer
is `f`; they shared `sh` at first. -/
structure Conducted (job total : UInt64) (sh : Shared) (Q : List Nat) (H : History)
    (f : Finalizer) : Prop where
  standing : Standing job total f Q H.attempts
  told_eq : f.told = H.calls.reverse
  /-- The latch is found set just if it was set at first or somebody has set it since. -/
  looks : ∀ (H₁ H₂ : History) w latch, H = H₁ ++ (w, .looked latch) :: H₂ →
    latch = (sh.latch || H₁.acts.any Act.isTrip)
  closedOnce : (closingsOf H.acts).length ≤ 1
  countedOnce : (metricsOf H.acts).length ≤ 1
  counted_eq : f.shared.counted = (metricsOf H.acts).reverse ++ sh.counted
  finalized : ∀ r, f.record = some r →
    closingsOf H.acts = [r.written] ∧ metricsOf H.acts = [.jobFinalized r.status]

theorem Account.conducted {shared : Shared} {now : Nat} (h : Account job total Q H f)
    (hrec : Recorded (new job total shared now) H f) : Conducted job total shared Q H f := by
  obtain ⟨hclosings, hmetrics⟩ := h.leaves
  have hleaves := h.standing.leaves
  rw [← hclosings, ← hmetrics] at hleaves
  refine ⟨h.standing, ?_, ?_, hleaves.1, hleaves.2.1, hrec.counted_eq, hleaves.2.2⟩
  · simpa [told, new] using hrec.told_eq
  · rintro H₁ H₂ w latch rfl
    have hagrees := hrec.agrees
    rw [History.acts_append] at hagrees
    exact (agrees_append.mp hagrees).2.1

/-- **A job is finalized once.** Whenever the callers come, whatever the services reply and whoever
marks the job as failed meanwhile, the attempts are made one after the other, one for each caller,
until one succeeds; the job is written and counted at most once, and its record answers all other
callers without another call. The attempts go on as long as a caller waits, and end. -/
theorem finalized_once {job total : UInt64} {shared : Shared} {now : Nat} {es : List Event}
    {f : Finalizer} (h : (new job total shared now).steps? es = some f) :
    Conducted job total shared (requests es) ((new job total shared now).history es) f ∧
    (∀ r, f.record = some r → ∀ gs f', f.steps? gs = some f' →
      f'.record = some r ∧ (f.history gs).attempts = [] ∧
        f'.answers = ((requests gs).map (·, .ok r)).reverse ++ f.answers) ∧
    es.countP Event.isAttempt ≤ 9 * (requests es).length ∧
    ∀ clock g, ∃ gs f', f.steps? gs = some f' ∧ (∀ e ∈ gs, e = .move clock ∨ e = .reply g) ∧
      f'.answers.reverse.map Prod.fst = requests es := by
  have hacc := account_of_steps h
  have hbound {gs : List Event} {f' : Finalizer}
      (hgs : (new job total shared now).steps? gs = some f') :
      gs.countP Event.isAttempt ≤ 9 * (requests gs).length := by
    have hfirst : (new job total shared now).Within 0 := rfl
    simpa using countP_isAttempt_le hfirst hgs
  refine ⟨hacc.conducted (recorded_of_steps h), ?_, hbound h, ?_⟩
  · intro r hr gs f' hgs
    have hcurrent := hacc.standing.current_of_record hr
    exact kept_of_steps hr hcurrent hgs
  · intro clock g
    obtain ⟨n, hn⟩ := exists_within_of_steps h
    obtain ⟨gs, f', hgs, hcalm, hrest⟩ := hacc.comes_to_rest hn clock g
    have hall : (new job total shared now).steps? (es ++ gs) = some f' := by
      rw [steps?_append, h]
      exact hgs
    have hnone : requests gs = [] := by
      refine List.filterMap_eq_nil_iff.mpr fun e he => ?_
      rcases hcalm e he with rfl | rfl <;> rfl
    have hanswered := (account_of_steps hall).standing.all_answered hrest
    rw [requests_append, hnone, List.append_nil] at hanswered
    exact ⟨gs, f', hgs, hcalm, hanswered⟩

def counting (n : UInt64) : (c : Call) → c.Outcome
  | .processedCount _ => .ok n
  | .updateJob .. => .ok ()
  | _ => .error (.timedOut .core)

/-- Two callers come together. The attempt of the first fails, the job is marked as failed, and the
second finds more entries counted than the job has. A third caller comes late. -/
def threeCallers : List Event :=
  [.request 0, .request 1, .move default, .reply fun _ => .error (.timedOut .core), .move default,
    .move default, .mark, .move default, .reply (counting 5), .move default, .move default,
    .move default, .reply (counting 5), .move default, .move default, .move default, .request 2]

theorem three_callers_finalize_once : ∃ f,
    (new 7 3 ⟨0, false, []⟩ 0).steps? threeCallers = some f ∧
      f.record = some ⟨7, 3, .failed, 3, default⟩ ∧
      closingsOf ((new 7 3 ⟨0, false, []⟩ 0).history threeCallers).acts =
        [(7, ⟨some 3, .failed, some default⟩)] ∧
      f.answers.reverse = [(0, .error (.timedOut .core)),
        (1, .ok ⟨7, 3, .failed, 3, default⟩), (2, .ok ⟨7, 3, .failed, 3, default⟩)] := by
  refine ⟨_, rfl, rfl, ?_, rfl⟩
  have hsteps : (new 7 3 ⟨0, false, []⟩ 0).steps? threeCallers = some _ := rfl
  exact ((finalized_once hsteps).1.finalized ⟨7, 3, .failed, 3, default⟩ rfl).1

end Vetting.Finalizer
