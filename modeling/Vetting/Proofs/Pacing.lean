import Vetting.Proofs.Waves

/-! # The pace of a whole run

When waits end just when they are over, the times at which rows pass a gate follow a recurrence. A
row passes when it comes, unless it opens a wave other than the first; then it passes an interval
after the row that opened the wave before, or when it comes, whichever is later. So a gate holds
nobody longer than the waves need, and after the first wave it lets no more than one batch through
in an interval. -/

namespace Vetting.Bulk.Gate

variable {batch interval : Nat} {vs : List Visit} {v : Visit} {g : Gate} {now k : Nat}

/-- Row `k` passes on time behind the rows `vs`. -/
structure OnTime (batch interval : Nat) (vs : List Visit) (k : Nat) (v : Visit) : Prop where
  /-- Whoever opens no wave, or the first one, does not wait. -/
  at_once : k = 0 ∨ ¬ batch ∣ k → v.passed = v.came
  /-- Whoever opens a later wave waits for the wave before, and for nothing else. -/
  opens : 0 < k → batch ∣ k →
    ∃ u, vs[k - batch]? = some u ∧ v.passed = max v.came (u.passed + interval)

theorem OnTime.append (h : OnTime batch interval vs k v) (ws : List Visit) :
    OnTime batch interval (vs ++ ws) k v where
  at_once := h.at_once
  opens hk hdvd := by
    obtain ⟨u, hu, hpassed⟩ := h.opens hk hdvd
    have hlt : k - batch < vs.length := (List.getElem?_eq_some_iff.mp hu).1
    exact ⟨u, (List.getElem?_append_left hlt).trans hu, hpassed⟩

/-- **A row that comes to a gate passes on time**, by where the gate stands. -/
theorem Standing.onTime (hb : 1 ≤ batch) (h : Standing batch interval vs g) (came : Nat) :
    OnTime batch interval vs vs.length ⟨came, (g.arrive came).1⟩ := by
  cases h with
  | unused hvs =>
    subst hvs
    exact ⟨fun _ => rfl, fun hk _ => absurd hk (Nat.lt_irrefl 0)⟩
  | @inWave w k s hs hlen hk hkb =>
    by_cases hfull : batch ≤ k
    · -- the wave is full: the row opens the next one
      have hnext : vs.length = (w + 1) * batch := by rw [Nat.add_mul]; omega
      have hstart : vs.length - batch = w * batch := by omega
      have hwaits : ((⟨batch, interval, k, some s.passed⟩ : Gate).arrive came).1 =
          max came (s.passed + interval) := by simp [arrive, decide, hfull]
      refine ⟨?_, fun _ _ => ⟨s, hstart ▸ hs, hwaits⟩⟩
      intro hfirst
      rcases hfirst with hzero | hndvd
      · omega
      · exact absurd (hnext ▸ Nat.dvd_mul_left batch (w + 1)) hndvd
    · have hpasses : ((⟨batch, interval, k, some s.passed⟩ : Gate).arrive came).1 = came := by
        simp [arrive, decide, hfull]
      refine ⟨fun _ => hpasses, ?_⟩
      intro _ hdvd
      -- a wave with room has not come to a multiple of the batch
      rw [hlen] at hdvd
      have hdvd' : batch ∣ k := (Nat.dvd_add_right (Nat.dvd_mul_left batch w)).mp hdvd
      have hle : batch ≤ k := Nat.le_of_dvd hk hdvd'
      exact absurd hle hfull

/-- Rows that come after the visits `vs` pass on time, whatever the pauses before them. -/
theorem onTime_visits (hb : 1 ≤ batch) (pauses : List Nat) (h : Standing batch interval vs g)
    (hv : (visits g now pauses)[k]? = some v) :
    OnTime batch interval (vs ++ visits g now pauses) (vs.length + k) v := by
  induction pauses generalizing vs g now k with
  | nil => simp [visits] at hv
  | cons pause pauses ih =>
    have hadm := admits_arrive g (now + pause)
    simp only [visits] at hv ⊢
    cases k with
    | zero =>
      simp only [List.getElem?_cons_zero, Option.some.injEq] at hv
      subst hv
      exact (h.onTime hb (now + pause)).append _
    | succ k =>
      simp only [List.getElem?_cons_succ] at hv
      have hrest := ih (h.admits hb hadm).1 hv
      rw [List.append_assoc, List.length_append, Nat.add_assoc, Nat.add_comm _ k] at hrest
      exact hrest

theorem length_visits (g : Gate) (now : Nat) (pauses : List Nat) :
    (visits g now pauses).length = pauses.length := by
  induction pauses generalizing g now with
  | nil => rfl
  | cons pause pauses ih => simp [visits, ih]

theorem came_visits {pauses : List Nat} {pause : Nat} {u : Visit}
    (hu : (visits g now pauses)[k]? = some u) (hv : (visits g now pauses)[k + 1]? = some v)
    (hpause : pauses[k + 1]? = some pause) : v.came = u.passed + pause := by
  induction pauses generalizing g now k with
  | nil => simp [visits] at hu
  | cons p pauses ih =>
    simp only [visits, List.getElem?_cons_succ] at hu hv hpause
    cases k with
    | succ k => exact ih hu hv hpause
    | zero =>
      cases pauses with
      | nil => simp at hpause
      | cons q pauses =>
        simp only [visits, List.getElem?_cons_zero, Option.some.injEq] at hu hv hpause
        subst hu hv hpause
        rfl

/-- Every wave costs an interval. -/
theorem Course.waves_cost (hb : 1 ≤ batch) (h : Course (new batch interval) vs g) {u : Visit}
    (hu : vs[0]? = some u) (m : Nat) (hv : vs[m * batch]? = some v) :
    u.passed + m * interval ≤ v.passed := by
  induction m generalizing v with
  | zero =>
    rw [Nat.zero_mul] at hv
    cases hu.symm.trans hv
    omega
  | succ m ih =>
    have hlt : (m + 1) * batch < vs.length := (List.getElem?_eq_some_iff.mp hv).1
    have hle : m * batch ≤ (m + 1) * batch := Nat.mul_le_mul_right batch (Nat.le_succ m)
    have hs : vs[m * batch]? = some vs[m * batch] := List.getElem?_eq_getElem (by omega)
    have hstart := ih hs
    have hwave := waves_apart hb h hs hv
    rw [Nat.add_mul, Nat.one_mul]
    omega

theorem Course.row_costs (hb : 1 ≤ batch) (h : Course (new batch interval) vs g) {u : Visit}
    (hu : vs[0]? = some u) {m j : Nat} (hv : vs[m * batch + j]? = some v) :
    u.passed + m * interval ≤ v.passed := by
  have hlt : m * batch + j < vs.length := (List.getElem?_eq_some_iff.mp hv).1
  have hs : vs[m * batch]? = some vs[m * batch] := List.getElem?_eq_getElem (by omega)
  have hstart := h.waves_cost hb hu m hs
  have hmono := h.passed_mono (Nat.le_add_right _ _) hs hv
  exact Nat.le_trans hstart hmono

theorem Course.countP_passed_le (hb : 1 ≤ batch) (h : Course (new batch interval) vs g) {u : Visit}
    (hu : vs[0]? = some u) (m : Nat) :
    vs.countP (fun v => v.passed < u.passed + m * interval) ≤ m * batch := by
  have hlate : (vs.drop (m * batch)).countP (fun v => v.passed < u.passed + m * interval) = 0 := by
    rw [List.countP_eq_zero]
    intro v hv
    obtain ⟨j, hj⟩ := List.mem_iff_getElem?.mp hv
    rw [List.getElem?_drop] at hj
    have hcost := h.row_costs hb hu hj
    simpa using hcost
  rw [← List.take_append_drop (m * batch) vs, List.countP_append, hlate, Nat.add_zero]
  exact Nat.le_trans List.countP_le_length (List.length_take_le _ _)

theorem new_max (batch interval : Nat) : new (max batch 1) interval = new batch interval := by
  simp [new]

/-- **The pace of a whole run.** Whatever the batch, the interval and the pauses between the rows,
every row that comes passes, and it passes on time; a batch of none counts as one. So the rows of
wave `m` pass `m` intervals or more after the first row, and in the first `m` intervals no more than
`m` batches pass. The rows come one after the other, each a pause after the row before has
passed. -/
theorem rows_pass_on_time (batch interval now : Nat) (pauses : List Nat) :
    let b := max batch 1
    let vs := visits (new batch interval) now pauses
    vs.length = pauses.length ∧
    (∀ k u v pause, vs[k]? = some u → vs[k + 1]? = some v → pauses[k + 1]? = some pause →
      v.came = u.passed + pause) ∧
    (∀ k v, vs[k]? = some v → OnTime b interval vs k v) ∧
    (∀ m j u v, vs[0]? = some u → vs[m * b + j]? = some v → u.passed + m * interval ≤ v.passed) ∧
    ∀ m u, vs[0]? = some u → vs.countP (fun v => v.passed < u.passed + m * interval) ≤ m * b := by
  intro b vs
  have hb : 1 ≤ b := Nat.le_max_right batch 1
  have hnew : new b interval = new batch interval := new_max batch interval
  obtain ⟨g, hvisits⟩ := course_visits (new batch interval) now pauses
  have hcourse : Course (new b interval) vs g := by rw [hnew]; exact hvisits
  have hunused : Standing b interval [] (new batch interval) := by
    rw [← hnew, new_eq hb]
    exact .unused rfl
  refine ⟨length_visits _ _ _, ?_, ?_, ?_, ?_⟩
  · intro k u v pause hu hv hpause
    exact came_visits hu hv hpause
  · intro k v hv
    simpa using onTime_visits hb pauses hunused hv
  · intro m j u v hu hv
    exact hcourse.row_costs hb hu hv
  · intro m u hu
    exact hcourse.countP_passed_le hb hu m

/-- With a batch of none every row opens a wave; the third one comes late and does not wait. -/
example : (visits (new 0 1000) 0 [0, 0, 2500, 0]).map (·.passed) = [0, 1000, 3500, 4500] := by decide

end Vetting.Bulk.Gate
