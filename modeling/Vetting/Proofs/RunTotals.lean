import Mathlib.Algebra.BigOperators.Group.Finset.Piecewise
import Mathlib.Algebra.Order.BigOperators.Group.Finset
import Vetting.Proofs.RowCourse
import Vetting.Proofs.RunAccount
import Vetting.Proofs.TaskCalls

/-! # What the rows of a run do together

However the rows are woven together, what they do of one kind is the sum of what each of them does.
So what holds of the counts of one row holds of the rows' counts; and since the latch is set for
the first time only once, at most one row writes the job as failed. -/

namespace Vetting.Bulk

open Finset

namespace History

variable {n : Nat} {R : History} {p q : Act → Bool}

/-- What the rows do is the sum of what each of them does. -/
theorem countP_acts (h : ∀ x ∈ R, ∃ i < n, x.1 = .row i) (p : Act → Bool) :
    R.acts.countP p = ∑ i ∈ range n, (R.of (.row i)).countP p := by
  induction R with
  | nil => simp [History.acts]
  | cons x R ih =>
    obtain ⟨j, hj, hx⟩ := h x List.mem_cons_self
    have hof (i : Nat) : (History.of (x :: R) (.row i)).countP p =
        (if j = i then (if p x.2 then 1 else 0) else 0) + (History.of R (.row i)).countP p := by
      by_cases hij : j = i
      · subst hij
        simp [History.of, hx, List.countP_cons, Nat.add_comm]
      · simp [History.of, hx, hij]
    have hsum : ∑ i ∈ range n, (if j = i then (if p x.2 then 1 else 0) else 0) =
        if p x.2 then 1 else 0 := by
      rw [sum_ite_eq, if_pos (mem_range.mpr hj)]
    rw [sum_congr rfl fun i _ => hof i, sum_add_distrib, hsum,
      ← ih fun y hy => h y (List.mem_cons_of_mem x hy)]
    simp [History.acts, List.countP_cons, Nat.add_comm]

theorem countP_le (h : ∀ x ∈ R, ∃ i < n, x.1 = .row i)
    (hle : ∀ i < n, (R.of (.row i)).countP p ≤ (R.of (.row i)).countP q) :
    R.acts.countP p ≤ R.acts.countP q := by
  rw [countP_acts h, countP_acts h]
  exact sum_le_sum fun i hi => hle i (mem_range.mp hi)

theorem countP_eq (h : ∀ x ∈ R, ∃ i < n, x.1 = .row i)
    (heq : ∀ i < n, (R.of (.row i)).countP p = (R.of (.row i)).countP q) :
    R.acts.countP p = R.acts.countP q := by
  rw [countP_acts h, countP_acts h]
  exact sum_congr rfl fun i hi => heq i (mem_range.mp hi)

/-- Some row did it just if the rows together did. -/
theorem any_acts (h : ∀ x ∈ R, ∃ i < n, x.1 = .row i) (p : Act → Bool) :
    R.acts.any p = true ↔ ∃ i < n, (R.of (.row i)).any p = true := by
  simp only [List.any_eq_true]
  constructor
  · rintro ⟨a, ha, hp⟩
    obtain ⟨x, hx, rfl⟩ := List.mem_map.mp ha
    obtain ⟨i, hi, hw⟩ := h x hx
    exact ⟨i, hi, x.2, History.mem_of.mpr (hw ▸ hx), hp⟩
  · rintro ⟨i, _, a, ha, hp⟩
    exact ⟨a, History.mem_acts_of_mem_of ha, hp⟩

end History

namespace Run

variable {plan : Plan} {A B : List Act} {R : History} {r : Run}

namespace Account

theorem course_opening (h : Account plan A R B r) :
    ∃ s, Course (Tracking.start plan.brief.job) A s := by
  cases h.stage with
  | opening _ _ hc _ => exact ⟨_, hc⟩
  | overdrawn _ _ hc _ _ => exact ⟨_, hc⟩
  | fanning _ _ hc _ _ => exact ⟨_, hc⟩
  | closing _ _ _ hc _ _ => exact ⟨_, hc⟩

theorem course_closing (h : Account plan A R B r) :
    ∃ s, Course (Tracking.attempt plan.brief.job plan.brief.total) B s := by
  cases h.stage with
  | opening _ _ _ hB => subst hB; exact ⟨_, .rest _⟩
  | overdrawn _ _ _ _ hB => subst hB; exact ⟨_, .rest _⟩
  | fanning _ _ _ _ hB => subst hB; exact ⟨_, .rest _⟩
  | closing _ _ _ _ _ hB => exact ⟨_, hB⟩

theorem opening_unclosing (h : Account plan A R B r) : Unclosing A := by
  obtain ⟨s, hA⟩ := h.course_opening
  exact hA.about (Tracking.start_unclosing _)

theorem rows_about {P : Call → Prop} (h : Account plan A R B r)
    (hrow : ∀ s, (Row.handle plan.brief s).Asks P) : About P R.acts := by
  intro a ha c hc
  obtain ⟨x, hx, rfl⟩ := List.mem_map.mp ha
  obtain ⟨i, hi, hw⟩ := h.started x hx
  have hcourse := h.course (List.getElem?_eq_getElem hi)
  exact hcourse.about (hrow _) x.2 (History.mem_of.mpr (hw ▸ hx)) c hc

theorem rows_unclosing (h : Account plan A R B r) : Unclosing R.acts :=
  h.rows_about (Row.handle_unclosing _)

/-- What closes the job is done by the main strand when the rows are over. -/
theorem mem_closing (h : Account plan A R B r) {w : Who} {a : Act} {c : Call}
    (hmem : (w, a) ∈ History.solo .main A ++ R ++ .solo .main B) (ha : a.about? = some c)
    (hc : c.closesJob = true) : w = .main ∧ a ∈ B := by
  rcases History.mem_woven.mp hmem with ⟨_, hA⟩ | hR | hB
  · rw [h.opening_unclosing a hA c ha] at hc
    cases hc
  · rw [h.rows_unclosing a (History.mem_acts hR) c ha] at hc
    cases hc
  · exact hB

theorem opening_quiet (h : Account plan A R B r) :
    ∀ a ∈ A, a.isTrip = false ∧ a.isAskError = false ∧ ∀ job, a.isTallied job = false := by
  obtain ⟨s, hc⟩ := h.course_opening
  cases hc with
  | rest => simp
  | waiting => simp [Act.isTrip, Act.isAskError, Act.isTallied]
  | crashed => simp [Act.isTrip, Act.isAskError, Act.isTallied]
  | call o hc =>
    obtain ⟨rfl, _⟩ := hc.of_done
    simp [Act.isTrip, Act.isAskError, Act.isTallied]

theorem closing_quiet (h : Account plan A R B r) :
    ∀ a ∈ B, a.isTrip = false ∧ a.isAskError = false ∧ ∀ job, a.isTallied job = false := by
  obtain ⟨s, hc⟩ := h.course_closing
  have hvis : ∀ a ∈ visible B,
      a.isTrip = false ∧ a.isAskError = false ∧ ∀ job, a.isTallied job = false := by
    have hcl := Tracking.closing_of_course hc
    generalize visible B = V at hcl ⊢
    cases hcl <;> simp [Act.isTrip, Act.isAskError, Act.isTallied]
  intro a ha
  cases hs : a.isSilent with
  | true => cases a <;> cases hs <;> exact ⟨rfl, rfl, fun _ => rfl⟩
  | false => exact hvis a ((mem_visible hs).mpr ha)

end Account

/-- **A run makes the calls of a run only**, and none of those that prepare it. -/
theorem about_of_steps {r₀ : Run} {es : List Event} (hfresh : r₀.Fresh)
    (h : r₀.steps? es = some r) : About (·.isRun = true) (r₀.history es).acts := by
  obtain ⟨A, R, B, hacc, hH⟩ := account_of_steps hfresh h
  obtain ⟨_, hA⟩ := hacc.course_opening
  obtain ⟨_, hB⟩ := hacc.course_closing
  have hstart := hA.about (Tracking.start_asks _)
  have hrows := hacc.rows_about (Row.handle_runs _)
  have hend := hB.about (Tracking.attempt_asks _ _)
  rw [hH]
  simpa using (hstart.append hrows).append hend

/-- The rows of `plan` did `R`, each of them all that it does, so that nothing is left to do. -/
structure Settled (plan : Plan) (R : History) : Prop where
  rows : ∀ x ∈ R, ∃ i < plan.submissions.length, x.1 = .row i
  course : ∀ {i s}, plan.submissions[i]? = some s →
    ∃ st, Course (Row.handle plan.brief s) (R.of (.row i)) st ∧ st.isOver = true

namespace Account

/-- **The rows are settled when the closing begins.** -/
theorem settled (h : Account plan A R B r)
    (hclose : B ≠ [] ∨ (∃ s, r.phase = .finalizing s) ∨ ∃ o, r.phase = .over o) :
    Settled plan R := by
  cases h.stage with
  | opening hopen _ _ hB =>
    rcases hclose with hne | ⟨s, hph⟩ | ⟨o, hph⟩
    · exact absurd hB hne
    · rw [hph] at hopen; cases hopen
    · rw [hph] at hopen; cases hopen
  | overdrawn hcr _ _ _ hB =>
    rcases hclose with hne | ⟨s, hph⟩ | ⟨o, hph⟩
    · exact absurd hB hne
    · rw [hph] at hcr; cases hcr
    · rw [hph] at hcr; cases hcr
  | fanning hrest _ _ _ hB =>
    rcases hclose with hne | ⟨s, hph⟩ | ⟨o, hph⟩
    · exact absurd hB hne
    · rw [hph] at hrest; cases hrest
    · rw [hph] at hrest; cases hrest
  | closing _ hsub hall _ _ _ =>
    have hlen : r.rows.length = plan.submissions.length := by rw [← hsub, List.length_map]
    refine ⟨hlen ▸ h.started, ?_⟩
    intro i s hs
    rw [← hsub, List.getElem?_map] at hs
    obtain ⟨row, hrow, rfl⟩ := Option.map_eq_some_iff.mp hs
    exact ⟨row.strand, h.course hrow, hall row (List.mem_of_getElem? hrow)⟩

end Account

theorem Settled.ended (h : Settled plan R) (hcalm : ∀ a ∈ R.acts, a.isCrash = false) {i : Nat}
    {s : Submission} (hs : plan.submissions[i]? = some s) :
    ∃ result, Course (Row.handle plan.brief s) (R.of (.row i)) (.ended result) := by
  obtain ⟨st, hc, hover⟩ := h.course hs
  have hrow : ∀ a ∈ R.of (.row i), a.isCrash = false :=
    fun a ha => hcalm a (History.mem_acts_of_mem_of ha)
  obtain ⟨result, rfl⟩ := hc.ended_of_calm hover hrow
  exact ⟨result, hc⟩

theorem Settled.handled (h : Settled plan R) (hcalm : ∀ a ∈ R.acts, a.isCrash = false) {i : Nat}
    {s : Submission} (hs : plan.submissions[i]? = some s) :
    Row.Handled plan.brief s (visible (R.of (.row i))) := by
  obtain ⟨result, hc⟩ := h.ended hcalm hs
  exact Row.handled_of_progress (Row.progress_of_course hc) rfl nofun

/-! ## The latch and the writes of the rows -/

theorem Account.counts_le (h : Account plan A R B r) :
    R.acts.countP Act.isTrip ≤ R.acts.countP Act.isAskError ∧
      R.acts.countP Act.isStatusWrite ≤ R.acts.countP Act.isFirstTrip := by
  have hrow {i : Nat} (hi : i < r.rows.length) :=
    Row.counts_of_course (h.course (List.getElem?_eq_getElem hi))
  exact ⟨History.countP_le h.started fun i hi => (hrow hi).1,
    History.countP_le h.started fun i hi => (hrow hi).2.1⟩

theorem Settled.counts_eq (h : Settled plan R) :
    R.acts.countP Act.isTrip = R.acts.countP Act.isAskError ∧
      R.acts.countP Act.isStatusWrite = R.acts.countP Act.isFirstTrip := by
  have hrow {i : Nat} (hi : i < plan.submissions.length) :
      (R.of (.row i)).countP Act.isTrip = (R.of (.row i)).countP Act.isAskError ∧
        (R.of (.row i)).countP Act.isStatusWrite = (R.of (.row i)).countP Act.isFirstTrip := by
    obtain ⟨st, hc, hover⟩ := h.course (List.getElem?_eq_getElem hi)
    exact (Row.counts_of_course hc).2.2 hover
  exact ⟨History.countP_eq h.rows fun i hi => (hrow hi).1,
    History.countP_eq h.rows fun i hi => (hrow hi).2⟩

/-- Settled rows have set the latch just if some product call failed. -/
theorem Settled.any_isTrip (h : Settled plan R) :
    R.acts.any Act.isTrip = R.acts.any Act.isAskError := by
  rw [Bool.eq_iff_iff, List.any_eq_true, List.any_eq_true, ← List.countP_pos_iff,
    ← List.countP_pos_iff, h.counts_eq.1]

namespace Account

/-- The rows find the latch as they left it themselves. -/
theorem rows_agree (h : Account plan A R B r)
    (hagree : Agrees false (History.solo Who.main A ++ R ++ .solo .main B).acts) :
    Agrees false R.acts ∧ Agrees (R.acts.any Act.isTrip) B := by
  have hA : A.any Act.isTrip = false := List.any_eq_false.mpr fun a ha =>
    by simp [(h.opening_quiet a ha).1]
  simp only [History.acts_append, History.acts_solo, agrees_append, List.any_append, hA,
    Bool.false_or] at hagree
  exact ⟨hagree.1.2, hagree.2⟩

theorem mem_callsOf_rows (h : Account plan A R B r) {c : Call} (hc : c ∈ callsOf R.acts) :
    ∃ i row, r.rows[i]? = some row ∧ c ∈ callsOf (R.of (.row i)) := by
  obtain ⟨a, ha, hca⟩ := List.mem_filterMap.mp hc
  obtain ⟨x, hx, rfl⟩ := List.mem_map.mp ha
  obtain ⟨i, hi, hw⟩ := h.started x hx
  refine ⟨i, r.rows[i], List.getElem?_eq_getElem hi, ?_⟩
  exact List.mem_filterMap.mpr ⟨x.2, History.mem_of.mpr (hw ▸ hx), hca⟩

/-- The calls of the rows, by what they are for. -/
theorem row_calls (h : Account plan A R B r) {c : Call} (hc : c ∈ callsOf R.acts) :
    (∃ s, c = Row.ask plan.brief s) ∨ c = Row.noteFailure plan.brief ∨ c.isLog = true := by
  obtain ⟨i, row, hrow, hc⟩ := h.mem_callsOf_rows hc
  rw [← callsOf_visible] at hc
  exact ((Row.progress_of_course (h.course hrow)).mem_callsOf hc).imp_left fun h => ⟨_, h⟩

theorem eq_noteFailure (h : Account plan A R B r) {c : Call} (hc : c ∈ callsOf R.acts)
    (hwrite : c.isStatusWrite = true) : c = Row.noteFailure plan.brief := by
  rcases h.row_calls hc with ⟨s, rfl⟩ | rfl | hlog
  · cases hwrite
  · rfl
  · cases c <;> cases hwrite
    cases hlog

theorem statusWrites_rows (h : Account plan A R B r) :
    (callsOf R.acts).filter Call.isStatusWrite =
      List.replicate (R.acts.countP Act.isStatusWrite) (Row.noteFailure plan.brief) := by
  apply List.eq_replicate_iff.mpr
  constructor
  · rw [← List.countP_eq_length_filter, countP_callsOf]
    apply List.countP_congr
    intro a _
    cases a <;> rfl
  · intro c hc
    obtain ⟨hc, hwrite⟩ := List.mem_filter.mp hc
    exact h.eq_noteFailure hc hwrite

end Account

end Run

end Vetting.Bulk
