import Vetting.Proofs.RunStep

/-! # Waves of admissions

Rows come to a gate one after the other, each once the row before it has passed. Row `i` belongs to
wave `i / batch`, and the first row of a wave passes an interval or more after the first row of the
wave before. Of the other rows the gate keeps no time: a row that comes late in its wave may be
followed by the next wave at once. So `batch + 1` rows in a row span the interval less the time by
which the first of them passed after its wave had started. -/

namespace Vetting.Bulk

namespace Gate

structure Visit where
  came : Nat
  passed : Nat
  deriving DecidableEq

/-- A row passes a gate. If it has to wait it goes on when its wait is over, or some time later. -/
inductive Admits (g : Gate) : Visit → Gate → Prop where
  | pass {now g'} : g.decide now = .pass g' → Admits g ⟨now, now⟩ g'
  | wait {came due passed} : g.decide came = .wait due → came ≤ passed → due ≤ passed →
      Admits g ⟨came, passed⟩ (g.restart passed)

/-- Rows that have passed one after the other, with any pauses in between. -/
inductive Course (g₀ : Gate) : List Visit → Gate → Prop where
  | nil : Course g₀ [] g₀
  | snoc {vs g v g'} : Course g₀ vs g → (∀ u ∈ vs, u.passed ≤ v.came) → Admits g v g' →
      Course g₀ (vs ++ [v]) g'

variable {batch interval : Nat} {vs : List Visit} {v : Visit} {g g' g₀ : Gate}

theorem visit_cases {u : Visit} {i : Nat} (h : (vs ++ [v])[i]? = some u) :
    vs[i]? = some u ∨ (i = vs.length ∧ u = v) := by
  rcases Nat.lt_or_ge i vs.length with hi | hi
  · rw [List.getElem?_append_left hi] at h
    exact .inl h
  · rw [List.getElem?_append_right hi, List.getElem?_singleton] at h
    split at h
    · cases h
      exact .inr ⟨by omega, rfl⟩
    · cases h

theorem Admits.came_le (h : Admits g v g') : v.came ≤ v.passed := by
  cases h with
  | pass _ => exact Nat.le_refl _
  | wait _ hcame _ => exact hcame

theorem admits_arrive (g : Gate) (now : Nat) :
    g.Admits ⟨now, (g.arrive now).1⟩ (g.arrive now).2 := by
  unfold arrive
  split
  · next h => exact .pass h
  · next h => exact .wait h (Nat.le_max_left _ _) (Nat.le_max_right _ _)

/-- The rows that come to a gate after these pauses, if waits end when they are over. -/
def visits (g : Gate) (now : Nat) : List Nat → List Visit
  | [] => []
  | pause :: pauses =>
    ⟨now + pause, (g.arrive (now + pause)).1⟩ ::
      visits (g.arrive (now + pause)).2 (g.arrive (now + pause)).1 pauses

theorem course_append_visits (pauses : List Nat) {now : Nat} (h : Course g₀ vs g)
    (hnow : ∀ u ∈ vs, u.passed ≤ now) : ∃ g', Course g₀ (vs ++ visits g now pauses) g' := by
  induction pauses generalizing vs g now with
  | nil => exact ⟨g, by simpa [visits] using h⟩
  | cons pause pauses ih =>
    have hcame : ∀ u ∈ vs, u.passed ≤ now + pause := fun u hu =>
      Nat.le_trans (hnow u hu) (Nat.le_add_right _ _)
    have hadm := admits_arrive g (now + pause)
    have hpassed : now + pause ≤ (g.arrive (now + pause)).1 := hadm.came_le
    obtain ⟨g', hg'⟩ := ih (h.snoc hcame hadm) (by
      intro u hu
      rcases List.mem_append.mp hu with hu | hu
      · exact Nat.le_trans (hcame u hu) hpassed
      · obtain rfl := List.mem_singleton.mp hu
        exact Nat.le_refl _)
    exact ⟨g', by simpa [visits] using hg'⟩

theorem course_visits (g : Gate) (now : Nat) (pauses : List Nat) :
    ∃ g', Course g (visits g now pauses) g' := by
  have hnone : ∀ u ∈ ([] : List Visit), u.passed ≤ now := nofun
  exact course_append_visits pauses .nil hnone

/-! ## Where a gate stands -/

/-- A gate after the visits `vs`: unused, or with `k` rows of wave `w` let through. -/
inductive Standing (batch interval : Nat) (vs : List Visit) : Gate → Prop where
  | unused : vs = [] → Standing batch interval vs ⟨batch, interval, 0, none⟩
  | inWave {w k s} : vs[w * batch]? = some s → vs.length = w * batch + k → 1 ≤ k → k ≤ batch →
      Standing batch interval vs ⟨batch, interval, k, some s.passed⟩

theorem Standing.admits (hb : 1 ≤ batch) (h : Standing batch interval vs g) (ha : Admits g v g') :
    Standing batch interval (vs ++ [v]) g' ∧
      ∀ w s, vs[w * batch]? = some s → vs.length = (w + 1) * batch →
        s.passed + interval ≤ v.passed := by
  cases h with
  | unused hvs =>
    subst hvs
    refine ⟨?_, by simp⟩
    cases ha with
    | @pass now _ hd =>
      cases hd
      exact .inWave (w := 0) (s := ⟨now, now⟩) (by simp) (by simp) (Nat.le_refl _) hb
    | wait hd _ _ => cases hd
  | @inWave w k s hs hlen hk hkb =>
    have hlt : w * batch < vs.length := by omega
    by_cases hfull : batch ≤ k
    · -- the wave is full, and the row opens the next one
      have hnext : vs.length = (w + 1) * batch := by rw [Nat.add_mul]; omega
      cases ha with
      | pass hd => simp [decide, hfull] at hd
      | @wait came due passed hd _ hdue =>
        simp only [decide, hfull, if_true, Decision.wait.injEq] at hd
        constructor
        · refine .inWave (w := w + 1) (s := ⟨came, passed⟩) ?_ ?_ (Nat.le_refl _) hb
          · rw [← hnext]; simp
          · rw [← hnext]; simp
        · intro w' s' hs' hlen'
          have hw : w' = w :=
            Nat.add_right_cancel (Nat.eq_of_mul_eq_mul_right hb (hlen'.symm.trans hnext))
          subst hw
          obtain rfl : s = s' := Option.some.inj (hs.symm.trans hs')
          show s.passed + interval ≤ passed
          omega
    · cases ha with
      | pass hd =>
        simp only [decide, hfull, if_false, Decision.pass.injEq] at hd
        subst hd
        constructor
        · refine .inWave (w := w) ?_ ?_ (by omega) (by omega)
          · rw [List.getElem?_append_left hlt]; exact hs
          · simp only [List.length_append, List.length_singleton]; omega
        · intro w' s' _ hlen'
          -- a wave with room has not come to a multiple of the batch
          have hmod : (w * batch + k) % batch = 0 := by
            rw [← hlen, hlen']; exact Nat.mul_mod_left _ _
          rw [Nat.add_comm, Nat.add_mul_mod_self_right, Nat.mod_eq_of_lt (by omega)] at hmod
          omega
      | wait hd _ _ => simp [decide, hfull] at hd

theorem new_eq (hb : 1 ≤ batch) : new batch interval = ⟨batch, interval, 0, none⟩ := by
  simp [new, Nat.max_eq_left hb]

theorem standing_of_course (hb : 1 ≤ batch) (h : Course (new batch interval) vs g) :
    Standing batch interval vs g := by
  induction h with
  | nil => rw [new_eq hb]; exact .unused rfl
  | snoc _ _ ha ih => exact (ih.admits hb ha).1

/-! ## The times of a course -/

theorem Course.passed_mono (h : Course g₀ vs g) {i j : Nat} {u v : Visit} (hij : i ≤ j)
    (hu : vs[i]? = some u) (hv : vs[j]? = some v) : u.passed ≤ v.passed := by
  induction h generalizing i j u v with
  | nil => cases hu
  | snoc _ hcame ha ih =>
    rcases visit_cases hu with hu' | ⟨hi, rfl⟩ <;> rcases visit_cases hv with hv' | ⟨hj, rfl⟩
    · exact ih hij hu' hv'
    · exact Nat.le_trans (hcame u (List.mem_of_getElem? hu')) ha.came_le
    · have hlt := (List.getElem?_eq_some_iff.mp hv').1
      omega
    · exact Nat.le_refl _

/-- **Waves start an interval apart.** -/
theorem waves_apart (hb : 1 ≤ batch) (h : Course (new batch interval) vs g) {w : Nat} {s v : Visit}
    (hs : vs[w * batch]? = some s) (hv : vs[(w + 1) * batch]? = some v) :
    s.passed + interval ≤ v.passed := by
  have hlt : w * batch < (w + 1) * batch := Nat.mul_lt_mul_of_pos_right (Nat.lt_succ_self w) hb
  induction h generalizing s v with
  | nil => cases hs
  | snoc hc _ ha ih =>
    rcases visit_cases hs with hs' | ⟨hi, rfl⟩ <;> rcases visit_cases hv with hv' | ⟨hj, rfl⟩
    · exact ih hs' hv'
    · exact ((standing_of_course hb hc).admits hb ha).2 w s hs' hj.symm
    · have hlen := (List.getElem?_eq_some_iff.mp hv').1
      omega
    · omega

/-- **Windows of `batch + 1` rows.** The last row of a window passes an interval or more after the
start of the wave that the window's first row belongs to. So the window spans the interval less the
time by which its first row passed after that start; where the first row passed with the start of
its wave, it spans the whole interval. -/
theorem window_spans {batch interval : Nat} {vs : List Visit} {g : Gate} (hb : 1 ≤ batch)
    (h : Course (new batch interval) vs g) {i : Nat} {u v : Visit} (hu : vs[i]? = some u)
    (hv : vs[i + batch]? = some v) :
    ∃ s, vs[i / batch * batch]? = some s ∧ s.passed ≤ u.passed ∧
      s.passed + interval ≤ v.passed ∧
      (u.passed = s.passed → u.passed + interval ≤ v.passed) := by
  have hi : i < vs.length := (List.getElem?_eq_some_iff.mp hu).1
  have hib : i + batch < vs.length := (List.getElem?_eq_some_iff.mp hv).1
  have hstart : i / batch * batch ≤ i := Nat.div_mul_le_self i batch
  have hnext : (i / batch + 1) * batch ≤ i + batch := by rw [Nat.add_mul]; omega
  have hs : vs[i / batch * batch]? = some vs[i / batch * batch] := List.getElem?_eq_getElem (by omega)
  have hn : vs[(i / batch + 1) * batch]? = some vs[(i / batch + 1) * batch] :=
    List.getElem?_eq_getElem (by omega)
  have hsu := h.passed_mono hstart hs hu
  have hwave := waves_apart hb h hs hn
  have hnv := h.passed_mono hnext hn hv
  refine ⟨_, hs, hsu, Nat.le_trans hwave hnv, ?_⟩
  intro heq
  rw [heq]
  exact Nat.le_trans hwave hnv

/-- Rows of which the second comes late in its wave. -/
def lateRows : List Visit := visits (new 2 1000) 0 [0, 900, 0, 0]

theorem late_rows_span : ∃ g s, Course (new 2 1000) lateRows g ∧ lateRows[0]? = some ⟨0, 0⟩ ∧
    lateRows[0 + 2]? = some ⟨900, 1000⟩ ∧ lateRows[0 / 2 * 2]? = some s ∧ s.passed = 0 ∧
    0 + 1000 ≤ 1000 := by
  obtain ⟨g, hg⟩ := course_visits (new 2 1000) 0 [0, 900, 0, 0]
  have hfirst : lateRows[0]? = some ⟨0, 0⟩ := rfl
  have hlast : lateRows[0 + 2]? = some ⟨900, 1000⟩ := rfl
  obtain ⟨s, hs, hle, _, hspan⟩ := window_spans (by decide) hg hfirst hlast
  have hzero : s.passed = 0 := Nat.le_zero.mp hle
  exact ⟨g, s, hg, hfirst, hlast, hs, hzero, hspan hzero.symm⟩

/-- The second and the fourth of `lateRows`, three rows in a row with a batch of two, pass within a
tenth of the interval: the second came late in its wave. -/
theorem not_spanned_within_wave : ∃ g, Course (new 2 1000) lateRows g ∧
    lateRows[1]? = some ⟨900, 900⟩ ∧ lateRows[1 + 2]? = some ⟨1000, 1000⟩ ∧
    ¬ 900 + 1000 ≤ 1000 := by
  obtain ⟨g, hg⟩ := course_visits (new 2 1000) 0 [0, 900, 0, 0]
  exact ⟨g, hg, rfl, rfl, by decide⟩

end Gate

/-! ## The rows of a run -/

namespace Run

/-- The rows of a run that have passed the gate, as visits of it. While the next row is held the
gate still stands as it stood when that row came. -/
inductive AtGate (g₀ : Gate) (vs : List Gate.Visit) (r : Run) : Prop where
  | free : Gate.Course g₀ vs r.gate → (∀ u ∈ vs, u.passed ≤ r.now) →
      (∀ due rest, r.phase ≠ .pausing due rest) → AtGate g₀ vs r
  | held {came due rest} : Gate.Course g₀ vs r.gate → (∀ u ∈ vs, u.passed ≤ came) →
      r.phase = .pausing due rest → r.gate.decide came = .wait due → came ≤ r.now → AtGate g₀ vs r

variable {r r' : Run} {A : History} {g₀ : Gate} {vs : List Gate.Visit}

theorem AtGate.congr (h : AtGate g₀ vs r) (hgate : r'.gate = r.gate) (hphase : r'.phase = r.phase)
    (hnow : r.now ≤ r'.now) : AtGate g₀ vs r' := by
  cases h with
  | free hc hle hfree =>
    refine .free (hgate ▸ hc) (fun u hu => Nat.le_trans (hle u hu) hnow) ?_
    rwa [hphase]
  | held hc hle hph hd hcame =>
    exact .held (hgate ▸ hc) hle (hphase.trans hph) (hgate ▸ hd) (Nat.le_trans hcame hnow)

theorem AtGate.course (h : AtGate g₀ vs r) (hfree : ∀ due rest, r.phase ≠ .pausing due rest) :
    Gate.Course g₀ vs r.gate ∧ ∀ u ∈ vs, u.passed ≤ r.now := by
  cases h with
  | free hc hle _ => exact ⟨hc, hle⟩
  | held _ _ hph _ _ => exact absurd hph (hfree _ _)

theorem AtGate.keep (h : AtGate g₀ vs r) (hfree : ∀ due rest, r.phase ≠ .pausing due rest)
    (hfree' : ∀ due rest, r'.phase ≠ .pausing due rest) (hgate : r'.gate = r.gate)
    (hnow : r'.now = r.now) : AtGate g₀ vs r' := by
  obtain ⟨hc, hle⟩ := h.course hfree
  exact .free (hgate ▸ hc) (hnow ▸ hle) hfree'

theorem setStrand_pacing (r : Run) (i : Nat) (row : RowState) (s : Strand Row.Result) :
    (r.setStrand i row s).gate = r.gate ∧ (r.setStrand i row s).phase = r.phase ∧
      (r.setStrand i row s).now = r.now := by
  simp only [setStrand, release]
  split <;> exact ⟨rfl, rfl, rfl⟩

theorem Step.atGate (h : AtGate g₀ vs r) (hs : Step r A r') : ∃ vs', AtGate g₀ vs' r' := by
  cases hs with
  | start hph _ _ | finish hph _ _ | opened hph _ | overdrawn hph _ | startCrash hph _
  | finishCrash hph _ | finished hph | spawned hph _ | allJoined hph _ =>
    exact ⟨vs, h.keep (by simp [hph]) (by simp [Run.spawn]) rfl rfl⟩
  | allStarted hph =>
    refine ⟨vs, h.keep ?_ (by simp) rfl rfl⟩
    rcases hph with hph | hph <;> simp [hph]
  | passed hph hd =>
    obtain ⟨hc, hle⟩ := h.course (by simp [hph])
    refine ⟨vs ++ [⟨r.now, r.now⟩], .free (hc.snoc hle (.pass hd)) ?_ (by simp)⟩
    simpa [or_imp, forall_and] using hle
  | held hph hd =>
    obtain ⟨hc, hle⟩ := h.course (by simp [hph])
    exact ⟨vs, .held hc hle rfl hd (Nat.le_refl _)⟩
  | released hph hdue =>
    cases h with
    | free _ _ hfree => exact absurd hph (hfree _ _)
    | @held came _ _ hc hle hph' hd hcame =>
      obtain ⟨rfl, rfl⟩ := Phase.pausing.inj (hph.symm.trans hph')
      refine ⟨vs ++ [⟨came, r.now⟩], .free (hc.snoc hle (.wait hd hcame hdue)) ?_ (by simp)⟩
      intro u hu
      rcases List.mem_append.mp hu with hu | hu
      · exact Nat.le_trans (hle u hu) hcame
      · obtain rfl := List.mem_singleton.mp hu
        exact Nat.le_refl _
  | joined hph _ _ _ => exact ⟨vs, h.congr rfl rfl (Nat.le_refl _)⟩
  | @row i row A s' sh _ _ =>
    obtain ⟨hgate, hphase, hnow⟩ := setStrand_pacing r i row s'
    exact ⟨vs, h.congr hgate hphase (Nat.le_of_eq hnow.symm)⟩

/-- **The rows of a run pass its gate one after the other**, at the pace of its plan. -/
theorem rows_pass_gate {plan : Plan} {issued : UInt64} {now : Nat} {es : List Event}
    (h : (new plan issued now).steps? es = some r) :
    ∃ vs, AtGate (Gate.new plan.pace.batch plan.pace.interval) vs r := by
  refine timed_steps_induction
    (P := fun _ r => ∃ vs, AtGate (Gate.new plan.pace.batch plan.pace.interval) vs r) h ?_ ?_ ?_
  · exact ⟨[], .free .nil (by simp) (by simp [new])⟩
  · rintro H r now ⟨vs, hP⟩ hnow
    exact ⟨vs, hP.congr rfl rfl hnow⟩
  · rintro H r A r' ⟨vs, hP⟩ hs
    exact hs.atGate hP

end Run

end Vetting.Bulk
