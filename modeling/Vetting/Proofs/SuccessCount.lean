import Vetting.Proofs.StatusHistory

/-! # The success count

A run keeps no count of its successes: it reads back how many successes of its job the log has
accepted. With a core service that counts what it accepted, and rows that do not crash, that is the
number of rows whose product answered and whose log call was accepted, since each of them left one
such entry and no other row left any, and since the count is read behind the last of them. -/

namespace Vetting

namespace Row

/-- The product answered, and the log call was accepted. -/
def credited (A : List Act) : Bool := A.any Act.isAskOk && A.any Act.isLogAccepted

/-- The product answered, but the log call was rejected. -/
def unlogged (A : List Act) : Bool := A.any Act.isAskOk && !A.any Act.isLogAccepted

variable {b : Brief} {s : Submission} {A V : List Act}

theorem Handled.countP_isTallied (h : Handled b s V) :
    V.countP (Act.isTallied b.job) = if credited V then 1 else 0 := by
  cases h with
  | refused o _ he =>
    have hsuccess : _ = false := he.status_eq.2
    cases o <;> simp [Act.isTallied, credited, Act.isAskOk, hsuccess]
  | failed err o _ hN he =>
    have hsuccess := (failed_status err).2
    rw [← he.status_eq.2] at hsuccess
    cases hN <;> cases o <;> simp [Act.isTallied, credited, Act.isAskOk, hsuccess]
  | confirmed o => cases o <;> rfl
  | entered o _ _ he =>
    obtain ⟨_, _, _, rfl⟩ := he
    cases o <;> simp [Act.isTallied, credited, Act.isAskOk, Act.isLogAccepted, Logbook.succeeded]

theorem credited_visible (A : List Act) : credited (visible A) = credited A := by
  rw [credited, any_visible (fun _ => rfl) (fun _ => rfl), any_visible (fun _ => rfl) (fun _ => rfl)]
  rfl

theorem unlogged_visible (A : List Act) : unlogged (visible A) = unlogged A := by
  rw [unlogged, any_visible (fun _ => rfl) (fun _ => rfl), any_visible (fun _ => rfl) (fun _ => rfl)]
  rfl

/-- A row that was handled is credited, invalid, failed by its product, or not logged. -/
theorem Handled.one_of_four (h : Handled b s V) :
    (if credited V then 1 else 0) + (if s.check.isSome then 1 else 0) +
      (if V.any Act.isAskError then 1 else 0) + (if unlogged V then 1 else 0) = 1 := by
  cases h with
  | refused o hc => cases o <;> simp [credited, unlogged, Act.isAskOk, Act.isAskError, hc]
  | failed err o hc hN =>
    cases hN <;> cases o <;> simp [credited, unlogged, Act.isAskOk, Act.isAskError, hc]
  | confirmed o hc =>
    cases o <;> simp [credited, unlogged, Act.isAskOk, Act.isAskError, Act.isLogAccepted, hc]
  | entered o hc =>
    cases o <;> simp [credited, unlogged, Act.isAskOk, Act.isAskError, Act.isLogAccepted, hc]

end Row

namespace Bulk

open Finset

/-! ## Counting over indices -/

theorem sum_range_ite (n : Nat) (p : Nat → Bool) :
    ∑ i ∈ range n, (if p i then 1 else 0) = (List.range n).countP p := by
  induction n with
  | zero => rfl
  | succ n ih => rw [sum_range_succ, ih, List.range_succ]; simp [List.countP_append]

theorem countP_eq_range {α : Type} (l : List α) (p : α → Bool) :
    l.countP p = (List.range l.length).countP fun i => l[i]?.any p := by
  induction l with
  | nil => rfl
  | cons a l ih =>
    rw [List.length_cons, List.range_succ_eq_map]
    simp [List.countP_cons, List.countP_map, Function.comp_def, ih]

theorem countP_range_four {n : Nat} {p q u v : Nat → Bool}
    (h : ∀ i < n, (if p i then 1 else 0) + (if q i then 1 else 0) + (if u i then 1 else 0) +
      (if v i then 1 else 0) = 1) :
    (List.range n).countP p + (List.range n).countP q + (List.range n).countP u +
      (List.range n).countP v = n := by
  induction n with
  | zero => rfl
  | succ n ih =>
    have hlast := h n (Nat.lt_succ_self n)
    have hinit := ih fun i hi => h i (Nat.lt_succ_of_lt hi)
    simp only [List.range_succ, List.countP_append, List.countP_singleton]
    omega

/-- Whether a count that the core tells is the one that `tally` gives for its job. -/
def tells (tally : UInt64 → Nat) : Act → Bool
  | .answered (.processedCount job) (.ok n) => UInt64.toNat n == tally job
  | _ => true

/-- The core counts what it accepted: each count it tells in `H` is the number of the successes of
the job that it accepted in `before` and in `H` by then. -/
def History.countsAccepted (before : List Act) : History → Bool
  | [] => true
  | x :: H => tells (fun job => before.countP (Act.isTallied job)) x.2 &&
      countsAccepted (before ++ [x.2]) H

theorem History.toNat_of_countsAccepted {before : List Act} {H₁ H₂ : History} {w : Who}
    {job n : UInt64}
    (h : countsAccepted before (H₁ ++ (w, .answered (.processedCount job) (.ok n)) :: H₂) = true) :
    n.toNat = (before ++ H₁.acts).countP (Act.isTallied job) := by
  induction H₁ generalizing before with
  | nil => simpa [countsAccepted, tells, History.acts] using (Bool.and_eq_true_iff.mp h).1
  | cons x H₁ ih => simpa [History.acts] using ih (Bool.and_eq_true_iff.mp h).2

namespace Run

variable {plan : Plan} {A B : List Act} {R : History} {r : Run}

def credits (plan : Plan) (H : History) : Nat :=
  (List.range plan.submissions.length).countP fun i => Row.credited (H.of (.row i))

theorem credits_le (plan : Plan) (H : History) : credits plan H ≤ plan.submissions.length := by
  simpa [credits] using List.countP_le_length (l := List.range plan.submissions.length)
    (p := fun i => Row.credited (H.of (.row i)))

theorem Settled.countP_isTallied (h : Settled plan R) (hcalm : ∀ a ∈ R.acts, a.isCrash = false) :
    R.acts.countP (Act.isTallied plan.brief.job) = credits plan R := by
  have hrow {i : Nat} (hi : i < plan.submissions.length) :
      (R.of (.row i)).countP (Act.isTallied plan.brief.job) =
        if Row.credited (R.of (.row i)) then 1 else 0 := by
    rw [← Row.credited_visible, ← (h.handled hcalm (List.getElem?_eq_getElem hi)).countP_isTallied,
      countP_visible (fun _ => rfl) (fun _ => rfl)]
  rw [History.countP_acts h.rows, sum_congr rfl fun i hi => hrow (mem_range.mp hi), sum_range_ite]
  rfl

theorem Settled.credits_add (h : Settled plan R) (hcalm : ∀ a ∈ R.acts, a.isCrash = false) :
    credits plan R + plan.submissions.countP (·.check.isSome) +
      (List.range plan.submissions.length).countP
        (fun i => (R.of (.row i)).any Act.isAskError) +
      (List.range plan.submissions.length).countP (fun i => Row.unlogged (R.of (.row i))) =
        plan.submissions.length := by
  rw [countP_eq_range plan.submissions]
  apply countP_range_four
  intro i hi
  have hone := (h.handled hcalm (List.getElem?_eq_getElem hi)).one_of_four
  rw [Row.credited_visible, Row.unlogged_visible,
    any_visible (fun _ => rfl) (fun _ => rfl)] at hone
  rw [List.getElem?_eq_getElem hi]
  exact hone

/-- The product calls of two rows had the same outcome, and so had their log calls. -/
def SameFate (A A' : List Act) : Prop :=
  A.any Act.isAskOk = A'.any Act.isAskOk ∧ A.any Act.isAskError = A'.any Act.isAskError ∧
    A.any Act.isLogAccepted = A'.any Act.isLogAccepted

theorem credits_congr {H H' : History}
    (h : ∀ i < plan.submissions.length, SameFate (H.of (.row i)) (H'.of (.row i))) :
    credits plan H = credits plan H' := by
  apply List.countP_congr
  intro i hi
  obtain ⟨hok, _, hlog⟩ := h i (List.mem_range.mp hi)
  rw [Row.credited, Row.credited, hok, hlog]

/-- The count a run ends with, if the core counts what it accepted. -/
theorem Account.successCount_eq (h : Account plan A R B r)
    (hagree : Agrees false (History.solo Who.main A ++ R ++ .solo .main B).acts)
    (hcalm : ∀ a ∈ R.acts, a.isCrash = false)
    (hcore : History.countsAccepted [] (.solo .main A ++ R ++ .solo .main B) = true)
    (htotal : plan.brief.total.toNat = plan.submissions.length)
    {final : Tracking.Final} (hph : r.phase = .over (.ok final)) :
    final.successCount.toNat = credits plan R ∧
      (∀ n, .answered (.processedCount plan.brief.job) (.ok n) ∈ B → final.successCount = n) ∧
      final.status = Tracking.finalStatus (R.acts.any Act.isAskError) := by
  have hset := h.settled (.inr (.inr ⟨_, hph⟩))
  obtain ⟨n, time, hn, huniq, rfl⟩ := h.final_eq hagree hph
  have hmem : (Who.main, Act.answered (.processedCount plan.brief.job) (.ok n)) ∈
      History.solo .main B := History.mem_solo.mpr ⟨rfl, hn⟩
  obtain ⟨M, M', hM⟩ := List.append_of_mem hmem
  have hA : A.countP (Act.isTallied plan.brief.job) = 0 := List.countP_eq_zero.mpr fun a ha => by
    simp [(h.opening_quiet a ha).2.2]
  have hB : (History.acts M).countP (Act.isTallied plan.brief.job) = 0 := by
    apply List.countP_eq_zero.mpr
    intro a ha
    obtain ⟨x, hx, rfl⟩ := List.mem_map.mp ha
    have hxB : x ∈ History.solo .main B := hM ▸ List.mem_append_left _ hx
    simp [(h.closing_quiet _ (History.mem_solo.mp hxB).2).2.2]
  have hread : n.toNat = credits plan R := by
    rw [hM, ← List.append_assoc] at hcore
    rw [History.toNat_of_countsAccepted hcore, ← hset.countP_isTallied hcalm]
    simp only [List.nil_append, History.acts_append, History.acts_solo, List.countP_append, hA, hB,
      Nat.zero_add, Nat.add_zero]
  -- the clamp changes nothing, since no more rows are credited than there are
  have hmin : min n plan.brief.total = n := by
    have hle : n ≤ plan.brief.total := UInt64.le_iff_toNat_le.mpr (by
      rw [hread, htotal]
      exact credits_le plan R)
    exact if_pos hle
  rw [hmin]
  exact ⟨hread, fun n' hn' => (huniq n' hn').symm, rfl⟩

theorem reconciled {issued : UInt64} {now : Nat} {es : List Event} {final : Tracking.Final}
    (h : (new plan issued now).steps? es = some r)
    (hcalm : ∀ a ∈ ((new plan issued now).history es).acts, a.isCrash = false)
    (hcore : ((new plan issued now).history es).countsAccepted [] = true)
    (htotal : plan.brief.total.toNat = plan.submissions.length)
    (hover : r.phase = .over (.ok final)) :
    ∃ A R B, (new plan issued now).history es = .solo .main A ++ R ++ .solo .main B ∧
      Account plan A R B r ∧ Settled plan R ∧ (∀ a ∈ R.acts, a.isCrash = false) ∧
      final.successCount.toNat = credits plan R ∧
      (∀ n, .answered (.processedCount plan.brief.job) (.ok n) ∈ B → final.successCount = n) ∧
      final.status = Tracking.finalStatus (R.acts.any Act.isAskError) := by
  have hfresh := fresh_new plan issued now
  have hagree := (latch_of_steps hfresh h).1
  obtain ⟨A, R, B, hacc, hH⟩ := account_of_steps hfresh h
  rw [hH] at hagree hcalm hcore
  have hrows : ∀ a ∈ R.acts, a.isCrash = false := fun a ha => hcalm a (by simp [ha])
  exact ⟨A, R, B, hH, hacc, hacc.settled (.inr (.inr ⟨_, hover⟩)), hrows,
    hacc.successCount_eq hagree hrows hcore htotal hover⟩

theorem credits_woven (plan : Plan) (A : List Act) (R : History) (B : List Act) :
    credits plan (.solo .main A ++ R ++ .solo .main B) = credits plan R := by
  simp only [credits, History.of_row_woven]

/-- **The success count is the number of rows whose product answered and whose log call was
accepted**, in a run without crashes whose finalization succeeds, if the core counts what it
accepted and the total is the number of the rows. So the clamp changes nothing, the rows are split
by their fates, and runs that differ in their order only end alike. -/
theorem success_count_reconciled {plan : Plan} {issued : UInt64} {now : Nat} {es : List Event}
    {r : Run} {final : Tracking.Final} (h : (new plan issued now).steps? es = some r)
    (hcalm : ∀ a ∈ ((new plan issued now).history es).acts, a.isCrash = false)
    (hcore : ((new plan issued now).history es).countsAccepted [] = true)
    (htotal : plan.brief.total.toNat = plan.submissions.length)
    (hover : r.phase = .over (.ok final)) :
    let H := (new plan issued now).history es
    final.successCount.toNat = credits plan H ∧
    (∀ n, (.main, .answered (.processedCount plan.brief.job) (.ok n)) ∈ H →
      final.successCount = n) ∧
    final.successCount.toNat + plan.submissions.countP (·.check.isSome) +
      (List.range plan.submissions.length).countP
        (fun i => (H.of (.row i)).any Act.isAskError) +
      (List.range plan.submissions.length).countP (fun i => Row.unlogged (H.of (.row i))) =
        plan.submissions.length ∧
    ∀ issued' now' es' r' final', (new plan issued' now').steps? es' = some r' →
      (∀ a ∈ ((new plan issued' now').history es').acts, a.isCrash = false) →
      ((new plan issued' now').history es').countsAccepted [] = true →
      r'.phase = .over (.ok final') →
      (∀ i < plan.submissions.length,
        SameFate (H.of (.row i)) (((new plan issued' now').history es').of (.row i))) →
      final'.successCount = final.successCount ∧ final'.status = final.status := by
  intro H
  obtain ⟨A, R, B, hH, hacc, hset, hrows, hcount, hclamp, hstatus⟩ :=
    reconciled h hcalm hcore htotal hover
  have hHdef : H = .solo .main A ++ R ++ .solo .main B := hH
  refine ⟨?_, ?_, ?_, ?_⟩
  · rw [hHdef, credits_woven]
    exact hcount
  · intro n hn
    exact hclamp n (hacc.mem_closing (hHdef ▸ hn) rfl rfl).2
  · rw [hcount, hHdef]
    simp only [History.of_row_woven]
    exact hset.credits_add hrows
  · intro issued' now' es' r' final' h' hcalm' hcore' hover' hfate
    obtain ⟨A', R', B', hH', _, hset', hrows', hcount', _, hstatus'⟩ :=
      reconciled h' hcalm' hcore' htotal hover'
    rw [hHdef, hH'] at hfate
    simp only [History.of_row_woven] at hfate
    constructor
    · apply UInt64.toNat_inj.mp
      rw [hcount, hcount']
      exact (credits_congr hfate).symm
    · have hany : R'.acts.any Act.isAskError = R.acts.any Act.isAskError := by
        rw [Bool.eq_iff_iff, History.any_acts hset'.rows, History.any_acts hset.rows]
        refine exists_congr fun i => and_congr_right fun hi => ?_
        rw [(hfate i hi).2.1]
      rw [hstatus, hstatus', hany]

/-- Of the rows of `Plan.twoRows` one is credited, and the core counted one. -/
theorem two_rows_reconciled : ∃ r,
    (new (.twoRows (some 2)) 0 0).steps? twoRowsCourse = some r ∧
      r.phase = .over (.ok ⟨1, 2, .done, 1, default⟩) ∧
      1 = credits (.twoRows (some 2)) ((new (.twoRows (some 2)) 0 0).history twoRowsCourse) := by
  have hcalm : ∀ a ∈ ((new (.twoRows (some 2)) 0 0).history twoRowsCourse).acts,
      a.isCrash = false := by decide +kernel
  have hcore : ((new (.twoRows (some 2)) 0 0).history twoRowsCourse).countsAccepted [] = true := by
    decide +kernel
  refine ⟨_, rfl, rfl, ?_⟩
  exact (success_count_reconciled rfl hcalm hcore rfl rfl).1

end Run

end Bulk

end Vetting
