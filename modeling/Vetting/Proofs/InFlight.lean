import Vetting.Proofs.StatusHistory

/-! # Rows in flight

A capped run gives each row a permit before it starts it, and gets it back when the row is over,
whether it ended or crashed. So the permits left and the rows under way are always as many as the
cap, no permit is lost, and the run waits for a permit only while some row is under way. Rows are
started in the order of the upload, each once; a row that does not crash is handled and logged,
whatever becomes of the others; and the job is closed when all rows are over.

Only a crash in the call that opens the job ends a run before that: the client is told so, and no
row is started. -/

namespace Vetting

theorem Tracking.mem_of_attempt_over {job total : UInt64} {A : List Act}
    {s : Strand (Except ServiceError Final)} (h : Course (attempt job total) A s)
    (hover : s.isOver = true) : .called (.processedCount job) ∈ A := by
  cases h with
  | rest => cases hover
  | waiting => cases hover
  | crashed => simp
  | call => simp

theorem Tracking.mem_of_start_crashed {job : UInt64} {A : List Act}
    (h : Course (start job) A .crashed) : .crashed (opening job) ∈ A := by
  cases h with
  | crashed => simp
  | call o h =>
    obtain ⟨_, hends⟩ := h.of_done
    rcases hends with hends | hends <;> cases hends

/-- The opening of a job that crashed did nothing else. -/
theorem Tracking.eq_of_start_crashed {job : UInt64} {A : List Act}
    {s : Strand (Except ServiceError Unit)} (h : Course (start job) A s)
    (hmem : .crashed (opening job) ∈ A) :
    A = [.called (opening job), .crashed (opening job)] ∧ s = .crashed := by
  cases h with
  | rest => cases hmem
  | waiting => simp at hmem
  | crashed => exact ⟨rfl, rfl⟩
  | call o h =>
    obtain ⟨rfl, _⟩ := h.of_done
    simp at hmem

theorem Tracking.attempt_unopening (job total : UInt64) :
    (attempt job total).Asks (· ≠ opening job) := by
  refine ⟨nofun, fun o => ?_⟩
  cases o with
  | error e => trivial
  | ok n =>
    refine fun _ _ => ⟨by simp [opening], fun o => ?_⟩
    cases o <;> trivial

theorem Row.logged_of_over {b : Brief} {s : Submission} {A : List Act} {st : Strand Row.Result}
    (h : Course (Row.handle b s) A st) (hover : st.isOver = true)
    (hcalm : ∀ a ∈ A, a.isCrash = false) : Row.Logged b s A := by
  obtain ⟨result, rfl⟩ := h.ended_of_calm hover hcalm
  exact logged_of_handled (handled_of_progress (progress_of_course h) rfl nofun)

namespace Bulk.Run

open Tracking (opening)

/-- What holds of a run of `plan` that has done `H`, at any time. -/
structure InFlight (plan : Plan) (H : History) (r : Run) : Prop where
  /-- The permits left and the rows under way are as many as the cap. -/
  capped : ∀ n, plan.pace.cap = some n → ∃ left, r.permits = some left ∧ left + r.live = n
  uncapped : plan.pace.cap = none → r.permits = none
  /-- The rows are started in the order of the upload, each once. -/
  started : ∃ rest, r.rows.map RowState.submission ++ rest = plan.submissions
  /-- A row that is over and did not crash has been handled and logged. -/
  logged : ∀ i row, r.rows[i]? = some row → row.strand.isOver = true →
    (∀ a ∈ H.of (.row i), a.isCrash = false) →
    Row.Logged plan.brief row.submission (H.of (.row i))
  /-- The count is read when every row is over, and no row acts afterwards. -/
  barrier : ∀ H₁ H₂ : History, H = H₁ ++ (.main, .called (.processedCount plan.brief.job)) :: H₂ →
    (∀ i s, plan.submissions[i]? = some s → ∃ st,
      Course (Row.handle plan.brief s) (H₁.of (.row i)) st ∧ st.isOver = true) ∧
    ∀ x ∈ H₂, x.1 = .main

/-- What has been done when a run of `plan` is over: all rows were started and are over, and the
closing of the job has begun. -/
structure Finalized (plan : Plan) (H : History) (r : Run) : Prop where
  all_started : r.rows.map RowState.submission = plan.submissions
  all_over : ∀ row ∈ r.rows, row.strand.isOver = true
  counted : (.main, .called (.processedCount plan.brief.job)) ∈ H

/-- What has become of a run of `plan` when the call that opens its job has crashed: nothing else
was done, and the client is told that the run did not complete. -/
structure Unopened (plan : Plan) (r : Run) : Prop where
  no_rows : r.rows = []
  told_eq : r.told = [(.main, opening plan.brief.job)]
  answer_eq : r.answer? = some (.error ⟨.internal, "bulk run did not complete"⟩)

variable {plan : Plan} {A B : List Act} {R : History} {r r' : Run}

theorem Account.started_in_order (h : Account plan A R B r) :
    ∃ rest, r.rows.map RowState.submission ++ rest = plan.submissions := by
  cases h.stage with
  | opening _ hnil => exact ⟨plan.submissions, by simp [hnil]⟩
  | overdrawn _ hnil => exact ⟨plan.submissions, by simp [hnil]⟩
  | fanning _ hsub => exact ⟨_, hsub⟩
  | closing _ hsub => exact ⟨[], by simp [hsub]⟩

theorem Account.inFlight (h : Account plan A R B r) (hpermits : r.PermitsKept) :
    InFlight plan (.solo .main A ++ R ++ .solo .main B) r := by
  have hkept : r.permits.map (· + r.live) = plan.pace.cap := h.plan_eq ▸ hpermits
  refine ⟨?_, ?_, h.started_in_order, ?_, ?_⟩
  · intro n hn
    rw [hn] at hkept
    exact Option.map_eq_some_iff.mp hkept
  · intro hn
    rw [hn] at hkept
    exact Option.map_eq_none_iff.mp hkept
  · intro i row hrow hover hcalm
    rw [History.of_row_woven] at hcalm ⊢
    exact Row.logged_of_over (h.course hrow) hover hcalm
  · intro H₁ H₂ hH
    obtain ⟨hrows, hmain⟩ := h.rows_over_of_split hH rfl
    refine ⟨?_, hmain⟩
    intro i s hs
    obtain ⟨st, hc, hover, _⟩ := hrows i s hs
    exact ⟨st, hc, hover⟩

/-- **A run that is over has come to the closing of its job**, unless it crashed before its first
row. -/
theorem Account.finalized (h : Account plan A R B r) (hfits : plan.pace.capFits = true)
    (hopen : .crashed (opening plan.brief.job) ∉ A) (hans : r.answer?.isSome = true) :
    Finalized plan (.solo .main A ++ R ++ .solo .main B) r := by
  cases h.stage with
  | opening hph _ hc _ =>
    cases hph' : r.phase with
    | crashed =>
      rw [hph'] at hph
      cases hph
      exact absurd (Tracking.mem_of_start_crashed hc) hopen
    | «over» o => rw [hph'] at hph; cases hph
    | _ => simp [answer?, hph'] at hans
  | overdrawn _ _ _ hover _ => rw [hfits] at hover; cases hover
  | fanning hrest =>
    cases hph : r.phase with
    | crashed => rw [hph] at hrest; cases hrest
    | «over» o => rw [hph] at hrest; cases hrest
    | _ => simp [answer?, hph] at hans
  | @closing s o hcl hsub hall _ _ hB =>
    have hover : s.isOver = true := by
      cases hcl' : r.phase with
      | crashed => rw [hcl'] at hcl; cases hcl; rfl
      | «over» o => rw [hcl'] at hcl; cases hcl; rfl
      | _ => simp [answer?, hcl'] at hans
    have hcount := Tracking.mem_of_attempt_over hB hover
    exact ⟨hsub, hall, History.mem_woven.mpr (.inr (.inr ⟨rfl, hcount⟩))⟩

theorem finalized_of_steps {r₀ : Run} {es : List Event} (hfresh : r₀.Fresh)
    (h : r₀.steps? es = some r) (hfits : r₀.plan.pace.capFits = true)
    (hopen : (.main, .crashed (opening r₀.plan.brief.job)) ∉ r₀.history es)
    (hans : r.answer?.isSome = true) : Finalized r₀.plan (r₀.history es) r := by
  obtain ⟨A, R, B, hacc, hH⟩ := account_of_steps hfresh h
  rw [hH] at hopen ⊢
  refine hacc.finalized hfits ?_ hans
  intro hmem
  exact hopen (History.mem_woven.mpr (.inl ⟨rfl, hmem⟩))

/-- If the opening of the job crashed, the main strand crashed with it. -/
theorem Account.crashed_of_opening (h : Account plan A R B r)
    (hmem : (.main, .crashed (opening plan.brief.job)) ∈
      History.solo .main A ++ R ++ .solo .main B) :
    A = [.called (opening plan.brief.job), .crashed (opening plan.brief.job)] ∧
      r.phase = .crashed ∧ r.rows = [] ∧ B = [] := by
  have hA : .crashed (opening plan.brief.job) ∈ A := by
    rcases History.mem_woven.mp hmem with ⟨_, hA⟩ | hR | ⟨_, hB⟩
    · exact hA
    · obtain ⟨i, _, hi⟩ := h.started _ hR
      cases hi
    · obtain ⟨_, hc⟩ := h.course_closing
      exact absurd rfl (hc.about (Tracking.attempt_unopening _ _) _ hB _ rfl)
  have hnot {o : Except ServiceError Unit}
      (hc : Course (Tracking.start plan.brief.job) A (.ended o)) : False := by
    cases (Tracking.eq_of_start_crashed hc hA).2
  cases h.stage with
  | opening hph hrows hc hB =>
    obtain ⟨hA, rfl⟩ := Tracking.eq_of_start_crashed hc hA
    refine ⟨hA, ?_, hrows, hB⟩
    cases hph' : r.phase with
    | crashed => rfl
    | _ =>
      rw [hph'] at hph
      cases hph <;> contradiction
  | overdrawn _ _ hc | fanning _ _ hc | closing _ _ _ hc => exact (hnot hc).elim

theorem unopened_of_steps {r₀ : Run} {es : List Event} (hfresh : r₀.Fresh) (htold : r₀.told = [])
    (h : r₀.steps? es = some r)
    (hmem : (.main, .crashed (opening r₀.plan.brief.job)) ∈ r₀.history es) :
    Unopened r₀.plan r := by
  obtain ⟨A, R, B, hacc, hH⟩ := account_of_steps hfresh h
  rw [hH] at hmem
  obtain ⟨rfl, hph, hrows, rfl⟩ := hacc.crashed_of_opening hmem
  refine ⟨hrows, ?_, by simp [answer?, hph]⟩
  rw [told_of_steps h, htold, hH, hacc.rows_nil hrows]
  rfl

/-- **The cap is kept and never holds a run up**, whichever rows crash and whatever the services
reply. In every state the permits left and the rows under way are as many as the cap; a run does no
more than so many steps, and goes on as long as its client has no answer. If the call that opens the
job did not crash, a run that is over has started all its rows, every row is over and was logged
unless it crashed itself, and the closing has begun; and every run can be brought there. -/
theorem cap_kept {plan : Plan} {issued : UInt64} {now : Nat} {es : List Event} {r : Run}
    (hcap : plan.pace.cap ≠ some 0) (hfits : plan.pace.capFits = true)
    (h : (new plan issued now).steps? es = some r) :
    InFlight plan ((new plan issued now).history es) r ∧
    es.countP (!·.isTick) ≤ 16 * plan.submissions.length + 17 ∧
    (r.answer? = none → ∀ clock f, r.GoesOn clock f) ∧
    ((.main, .crashed (opening plan.brief.job)) ∈ (new plan issued now).history es →
      Unopened plan r) ∧
    ((.main, .crashed (opening plan.brief.job)) ∉ (new plan issued now).history es →
      (r.answer?.isSome = true → Finalized plan ((new plan issued now).history es) r) ∧
      ∀ clock f, ∃ fs r', r.steps? fs = some r' ∧ (∀ e ∈ fs, e.Calm clock f) ∧
        InFlight plan ((new plan issued now).history (es ++ fs)) r' ∧
        Finalized plan ((new plan issued now).history (es ++ fs)) r') := by
  have hfresh := fresh_new plan issued now
  have hflight {es : List Event} {r : Run} (h : (new plan issued now).steps? es = some r) :
      InFlight plan ((new plan issued now).history es) r := by
    obtain ⟨A, R, B, hacc, hH⟩ := account_of_steps hfresh h
    rw [hH]
    exact hacc.inFlight (permitsKept_of_steps hfresh h)
  refine ⟨hflight h, countP_steps_le (within_of_fresh hfresh) h, ?_,
    unopened_of_steps hfresh rfl h, ?_⟩
  · intro hans clock f
    exact goesOn_of_steps hfresh h hcap hans clock f
  · intro hopen
    refine ⟨finalized_of_steps hfresh h hfits hopen, ?_⟩
    intro clock f
    obtain ⟨fs, r', hfs, hcalm, hans⟩ := ends_of_steps hfresh h hcap clock f
    have hall : (new plan issued now).steps? (es ++ fs) = some r' := by
      rw [steps?_append, h]
      exact hfs
    refine ⟨fs, r', hfs, hcalm, hflight hall, finalized_of_steps hfresh hall hfits ?_ hans⟩
    rw [history_append h]
    intro hmem
    rcases List.mem_append.mp hmem with hmem | hmem
    · exact hopen hmem
    · have hnot := history_calm hcalm _ hmem
      cases hnot

/-- How a run of two rows under a cap of one may go: the first row crashes in its product call, and
the second one takes its permit. -/
def crashingCourse : List Event :=
  moves .main 1 ++ [.reply .main accepting] ++ moves .main 5 ++ moves (.row 0) 2 ++
  [.crash (.row 0)] ++ moves .main 2 ++ moves (.row 1) 5 ++ [.reply (.row 1) accepting] ++
  moves (.row 1) 1 ++ [.join 0, .join 1] ++ moves .main 2 ++ [.reply .main accepting] ++
  moves .main 3 ++ [.reply .main accepting] ++ moves .main 3

/-- The row that crashes gives its permit back, the other one is logged, and the run goes on to
close its job. -/
theorem crashed_row_frees_permit : ∃ r,
    (new (.twoRows (some 1)) 0 0).steps? crashingCourse = some r ∧
      r.phase = .over (.ok ⟨1, 2, .done, 1, default⟩) ∧ r.permits = some 1 ∧
      Row.Logged (Plan.twoRows (some 1)).brief ⟨.phoneLiveStatus, [""]⟩
        (((new (.twoRows (some 1)) 0 0).history crashingCourse).of (.row 1)) ∧
      Finalized (.twoRows (some 1)) ((new (.twoRows (some 1)) 0 0).history crashingCourse) r := by
  have hcap : (Plan.twoRows (some 1)).pace.cap ≠ some 0 := by decide
  have hrow : ∀ a ∈ ((new (.twoRows (some 1)) 0 0).history crashingCourse).of (.row 1),
      a.isCrash = false := by decide +kernel
  have hmain : ∀ x ∈ (new (.twoRows (some 1)) 0 0).history crashingCourse,
      x.1 = .main → x.2.isCrash = false := by decide +kernel
  have hopen : (Who.main, Act.crashed (opening (Plan.twoRows (some 1)).brief.job)) ∉
      (new (.twoRows (some 1)) 0 0).history crashingCourse := by
    intro hmem
    cases hmain _ hmem rfl
  refine ⟨_, rfl, rfl, rfl, ?_, ?_⟩
  · exact (cap_kept hcap rfl rfl).1.logged 1 _ rfl rfl hrow
  · exact ((cap_kept hcap rfl rfl).2.2.2.2 hopen).1 rfl

theorem stays_crashed {es : List Event} (hph : r.phase = .crashed) (hrows : r.rows = [])
    (h : r.steps? es = some r') : r'.phase = .crashed ∧ r'.rows = [] ∧ r'.journal = r.journal := by
  refine steps_induction (P := fun _ r' => r'.phase = .crashed ∧ r'.rows = [] ∧
    r'.journal = r.journal) h ⟨hph, hrows, rfl⟩ id ?_
  rintro _ r₁ X r₂ ⟨hph, hrows, hj⟩ hs
  cases hs with
  | row hrow => simp [hrows] at hrow
  | joined hph' => rw [hph] at hph'; cases hph'
  | allStarted hph' => rcases hph' with hph' | hph' <;> rw [hph] at hph' <;> cases hph'
  | _ hph' => rw [hph] at hph'; cases hph'

/-- If the call that opens the job crashes, the run is over for its client, and neither a row is
started nor the count read, whatever happens afterwards. -/
theorem no_rows_after_crashed_opening : ∃ es r,
    (Plan.twoRows (some 2)).pace.cap ≠ some 0 ∧ (Plan.twoRows (some 2)).pace.capFits = true ∧
      (new (.twoRows (some 2)) 0 0).steps? es = some r ∧
      r.answer? = some (.error ⟨.internal, "bulk run did not complete"⟩) ∧
      ∀ fs r', r.steps? fs = some r' →
        r'.rows = [] ∧ r'.told = [(.main, opening (Plan.twoRows (some 2)).brief.job)] := by
  refine ⟨moves .main 1 ++ [.crash .main], _, by decide, rfl, rfl, rfl, ?_⟩
  intro fs r' hfs
  obtain ⟨_, hrows, hjournal⟩ := stays_crashed rfl rfl hfs
  refine ⟨hrows, ?_⟩
  rw [told, hjournal]
  rfl

end Bulk.Run

end Vetting
