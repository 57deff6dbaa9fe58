import Vetting.Proofs.RunProgress
import Vetting.Proofs.RunTotals

/-! # Every row is logged once

In a run without crashes each row is handled once and makes one log call, whatever the services
reply and however the rows are woven together: an invalid row writes an entry with status 400, a
row whose product call failed one with status 502, and a row whose product call succeeded marks the
partner's entry or writes one of the desk's own. `Row.Logged` says so of one row.

There is one condition. No more than `Pace.maxCap` permits can be given out, and a plan that asks
for more crashes the run after it has opened the job, before its first row. -/

namespace Vetting

namespace Row

/-- What a row with the submission `s` asked and logged when it did `A`. -/
inductive Logged (b : Brief) (s : Submission) (A : List Act) : Prop where
  /-- The submission is not valid: no product is asked. -/
  | refused {c e} : s.check = some c → (callsOf A).filter Call.isAsk = [] →
      (callsOf A).filter Call.isLog = [.writeLog e] →
      e.Says b s (Logbook.invalid c.message) → e.status = 400 → e.success = false → Logged b s A
  /-- The product call failed. -/
  | failed {err e} : s.check = none → (callsOf A).filter Call.isAsk = [ask b s] →
      .answered (ask b s) (.error err) ∈ A → (callsOf A).filter Call.isLog = [.writeLog e] →
      e.Says b s (Logbook.failed err) → e.status = 502 → e.success = false → Logged b s A
  /-- The product call succeeded, and the partner has an entry of its own. -/
  | confirmed {a} : s.check = none → (callsOf A).filter Call.isAsk = [ask b s] →
      .answered (ask b s) (.ok (.catalog a)) ∈ A → b.product.logsOwnSuccess = false →
      a.transactionId ≠ "" → (callsOf A).filter Call.isLog = [.confirmLog a.transactionId] →
      Logged b s A
  /-- The product call succeeded, and the partner has no entry of its own. -/
  | entered {a e} : s.check = none → (callsOf A).filter Call.isAsk = [ask b s] →
      .answered (ask b s) (.ok a) ∈ A → b.product.logsOwnSuccess = true ∨ a.transactionId = none →
      (callsOf A).filter Call.isLog = [.writeLog e] → e.Says b s (Logbook.succeeded a) →
      e.success = true → Logged b s A

theorem failed_status (e : ServiceError) :
    (Logbook.failed e).status = 502 ∧ (Logbook.failed e).success = false := by
  cases e <;> exact ⟨rfl, rfl⟩

variable {b : Brief} {s : Submission} {A : List Act}

theorem logged_of_handled (h : Handled b s (visible A)) : Logged b s A := by
  have hcalls : callsOf A = callsOf (visible A) := (callsOf_visible A).symm
  have hmem {c : Call} {o : c.Outcome} (hV : .answered c o ∈ visible A) : .answered c o ∈ A :=
    (mem_visible rfl).mp hV
  generalize visible A = V at h hcalls hmem
  cases h with
  | @refused c e o hc he =>
    exact .refused hc (by rw [hcalls]; rfl) (by rw [hcalls]; rfl) he he.status_eq.1 he.status_eq.2
  | @failed N e err o hc hN he =>
    obtain ⟨hstatus, hsuccess⟩ := failed_status err
    rw [← he.status_eq.1] at hstatus
    rw [← he.status_eq.2] at hsuccess
    refine .failed hc ?_ (hmem (by simp)) ?_ he hstatus hsuccess
    · rw [hcalls]; cases hN <;> rfl
    · rw [hcalls]; cases hN <;> rfl
  | confirmed o hc hown hid =>
    exact .confirmed hc (by rw [hcalls]; rfl) (hmem (by simp)) hown hid (by rw [hcalls]; rfl)
  | @entered a e o hc hown he =>
    exact .entered hc (by rw [hcalls]; rfl) (hmem (by simp)) hown (by rw [hcalls]; rfl) he
      he.status_eq.2

theorem Logged.countP_isLog (h : Logged b s A) : (callsOf A).countP Call.isLog = 1 := by
  rw [List.countP_eq_length_filter]
  cases h <;> simp [*]

end Row

namespace Bulk

/-! ## A course of two rows -/

/-- A plan of two rows, the second of them invalid. -/
def Plan.twoRows (cap : Option Nat) : Plan where
  brief := ⟨.phoneLiveStatus, 1, 2, 5, 9, 4, 2, "key-1"⟩
  submissions := [⟨.phoneLiveStatus, ["081234567890"]⟩, ⟨.phoneLiveStatus, [""]⟩]
  pace := ⟨100, 1000, cap⟩

/-- Services that accept what they are asked in a run, and a partner that keeps a log. -/
def accepting : (c : Call) → c.Outcome
  | .updateJob .. => .ok ()
  | .processedCount _ => .ok (1 : UInt64)
  | .writeLog _ => .ok ()
  | .confirmLog _ => .ok ()
  | .ask .. => .ok (.catalog ⟨true, none, .null, "OK", "", "T-1", "", 200⟩)
  | _ => .error (.timedOut .core)

namespace Run

def moves (w : Who) (n : Nat) : List Event := List.replicate n (.move w default)

/-- How a run of two rows may go: the second row overtakes the first. -/
def twoRowsCourse : List Event :=
  moves .main 1 ++ [.reply .main accepting] ++ moves .main 7 ++ moves (.row 0) 2 ++
  moves (.row 1) 5 ++ [.reply (.row 0) accepting] ++ moves (.row 0) 1 ++
  [.reply (.row 1) accepting, .reply (.row 0) accepting] ++ moves (.row 1) 1 ++
  moves (.row 0) 1 ++ [.join 1, .join 0] ++ moves .main 2 ++ [.reply .main accepting] ++
  moves .main 3 ++ [.reply .main accepting] ++ moves .main 3

end Run

end Bulk

namespace Bulk.Run

variable {plan : Plan} {A B : List Act} {R : History} {r : Run}

theorem Account.countP_isLog (h : Account plan A R B r) :
    (callsOf A).countP Call.isLog = 0 ∧ (callsOf B).countP Call.isLog = 0 := by
  obtain ⟨s, hA⟩ := h.course_opening
  obtain ⟨s', hB⟩ := h.course_closing
  constructor
  · rcases Tracking.callsOf_start hA with ⟨rfl, _⟩ | hcalls
    · rfl
    · rw [hcalls]; rfl
  · rcases Tracking.callsOf_attempt hB with hcalls | hcalls | ⟨n, latch, time, hcalls⟩
    · rw [hcalls]; rfl
    · rw [hcalls]; rfl
    · rw [hcalls]; rfl

theorem Settled.logged (h : Settled plan R) (hcalm : ∀ a ∈ R.acts, a.isCrash = false) {i : Nat}
    {s : Submission} (hs : plan.submissions[i]? = some s) :
    (∃ result, Course (Row.handle plan.brief s) (R.of (.row i)) (.ended result)) ∧
      Row.Logged plan.brief s (R.of (.row i)) := by
  exact ⟨h.ended hcalm hs, Row.logged_of_handled (h.handled hcalm hs)⟩

theorem Settled.countP_isLog (h : Settled plan R) (hcalm : ∀ a ∈ R.acts, a.isCrash = false) :
    (callsOf R.acts).countP Call.isLog = plan.submissions.length := by
  have hrow {i : Nat} (hi : i < plan.submissions.length) :
      (R.of (.row i)).countP (fun a => a.call?.any Call.isLog) = 1 := by
    rw [← (h.logged hcalm (List.getElem?_eq_getElem hi)).2.countP_isLog, countP_callsOf]
  rw [countP_callsOf, History.countP_acts h.rows,
    Finset.sum_congr rfl fun i hi => hrow (Finset.mem_range.mp hi)]
  simp

/-! ## Whole runs -/

/-- **Every row is handled once and logged once**, in a run without crashes. For a plan whose cap
can be met a run does no more than so many steps, can be brought to its end from wherever it stands
whatever the services reply, and at its end has made one log call for each row, the one that the
row was due. For a plan whose cap cannot be met no run comes to its end, and no row is logged. -/
theorem rows_logged_once {plan : Plan} {issued : UInt64} {now : Nat} {es : List Event} {r : Run}
    (hcap : plan.pace.cap ≠ some 0) (h : (new plan issued now).steps? es = some r)
    (hcalm : ∀ a ∈ ((new plan issued now).history es).acts, a.isCrash = false) :
    (plan.pace.capFits = true →
      es.countP (!·.isTick) ≤ 16 * plan.submissions.length + 17 ∧
      (∀ clock f, ∃ fs r' o, r.steps? fs = some r' ∧ (∀ e ∈ fs, e.Calm clock f) ∧
        r'.phase = .over o) ∧
      ∀ o, r.phase = .over o →
        r.told.countP (·.2.isLog) = plan.submissions.length ∧
        (∀ x ∈ (new plan issued now).history es,
          x.1 = .main ∨ ∃ i < plan.submissions.length, x.1 = .row i) ∧
        ∀ i s, plan.submissions[i]? = some s →
          let A := ((new plan issued now).history es).of (.row i)
          (∃ result, Course (Row.handle plan.brief s) A (.ended result)) ∧
            Row.Logged plan.brief s A) ∧
    (plan.pace.capFits = false → r.told.countP (·.2.isLog) = 0 ∧ ∀ o, r.phase ≠ .over o) := by
  have hfresh := fresh_new plan issued now
  have htold : r.told = ((new plan issued now).history es).calls.reverse := by
    simpa [told, new] using told_of_steps h
  have hcount : r.told.countP (·.2.isLog) =
      (callsOf ((new plan issued now).history es).acts).countP Call.isLog := by
    rw [htold, List.countP_reverse, ← History.calls_map_snd, List.countP_map]
    rfl
  have hmain : ∀ a ∈ ((new plan issued now).history es).of .main, a.isCrash = false :=
    fun a ha => hcalm a (History.mem_acts_of_mem_of ha)
  have hbound : es.countP (!·.isTick) ≤ 16 * plan.submissions.length + 17 :=
    countP_steps_le (within_of_fresh hfresh) h
  have hends (hfits : plan.pace.capFits = true) := completes hfresh h hmain hcap hfits
  obtain ⟨A, R, B, hacc, hH⟩ := account_of_steps hfresh h
  obtain ⟨hA, hB⟩ := hacc.countP_isLog
  rw [hH] at hcount hcalm ⊢
  simp only [History.acts_append, History.acts_solo, callsOf_append, List.countP_append, hA, hB,
    Nat.zero_add, Nat.add_zero] at hcount
  constructor
  · intro hfits
    refine ⟨hbound, hends hfits, ?_⟩
    intro o hph
    have hset := hacc.settled (.inr (.inr ⟨o, hph⟩))
    have hrows : ∀ a ∈ R.acts, a.isCrash = false := fun a ha => hcalm a (by simp [ha])
    refine ⟨hcount.trans (hset.countP_isLog hrows), ?_, ?_⟩
    · intro x hx
      rcases History.mem_woven.mp hx with hx | hx | hx
      · exact .inl hx.1
      · exact .inr (hset.rows x hx)
      · exact .inl hx.1
    · intro i s hs
      rw [History.of_row_woven]
      exact hset.logged hrows hs
  · intro hfits
    obtain ⟨rfl, _, hover⟩ := hacc.of_not_fits hfits
    exact ⟨hcount, hover⟩

/-- The rows of `Plan.twoRows` are logged once, though the invalid one overtakes the other. -/
theorem two_rows_logged_once : ∃ r,
    (new (.twoRows (some 2)) 0 0).steps? twoRowsCourse = some r ∧
      r.phase = .over (.ok ⟨1, 2, .done, 1, default⟩) ∧ r.told.countP (·.2.isLog) = 2 := by
  have hcap : (Plan.twoRows (some 2)).pace.cap ≠ some 0 := by decide
  have hcalm : ∀ a ∈ ((new (.twoRows (some 2)) 0 0).history twoRowsCourse).acts,
      a.isCrash = false := by decide +kernel
  refine ⟨_, rfl, rfl, ?_⟩
  exact (((rows_logged_once hcap rfl hcalm).1 rfl).2.2 _ rfl).1

/-- With one permit more than can be given out, no row of a run is logged, though nothing crashes
and the client is told that the run is over. -/
theorem not_logged_beyond_maxCap : ∃ es r,
    (Plan.twoRows (some (Pace.maxCap + 1))).pace.cap ≠ some 0 ∧
      (new (.twoRows (some (Pace.maxCap + 1))) 0 0).steps? es = some r ∧
      (∀ a ∈ ((new (.twoRows (some (Pace.maxCap + 1))) 0 0).history es).acts,
        a.isCrash = false) ∧
      r.answer? = some (.error ⟨.internal, "bulk run did not complete"⟩) ∧
      r.told.countP (·.2.isLog) = 0 :=
  ⟨moves .main 1 ++ [.reply .main accepting] ++ moves .main 2, _, by decide, rfl,
    by decide +kernel, rfl, rfl⟩

end Bulk.Run

end Vetting
