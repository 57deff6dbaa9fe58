import Vetting.Proofs.ClientAnswer
import Vetting.Proofs.SteadyServices
import Vetting.Proofs.UploadChecks

/-! # Uploads of one row

The strands of a bulk run of one row take turns: the main strand opens the job, the row is handled,
the main strand closes the job. So as long as nothing crashes the acts of such a run, one after the
other, are a course of one task, and this task is the run of a single submission. With what
prepares it, an upload of one row is then like the single submission of the same data. -/

namespace Vetting

/-- What is asked before the job of one submission of a tenant that is not metered. The rest goes on
with the subscription and the job. -/
def Admission.single {α : Type} (i : Identity) (p : Product)
    (rest : Subscription → JobRef → Task (Except Refusal α)) : Task (Except Refusal α) :=
  (subscription i p).require fun sub => (grading i p).require fun _ =>
  (createJob i sub 1).require (rest sub)

namespace Admission

variable {α β : Type} {i : Identity} {p : Product}

theorem single_require (rest : Subscription → JobRef → Task (Except Refusal α))
    (f : α → Task (Except Refusal β)) :
    (single i p rest).require f = single i p fun sub job => (rest sub job).require f := by
  simp only [single, Task.require_assoc]

theorem single_alike {rest : Subscription → JobRef → Task (Except Refusal α)}
    {rest' : Subscription → JobRef → Task (Except Refusal β)}
    (h : ∀ sub job, (rest sub job).Alike (fun _ _ => True) (rest' sub job)) :
    (single i p rest).Alike (fun _ _ => True) (single i p rest') :=
  (subscription_alike i p).require (fun _ => trivial) fun sub =>
    (grading_alike i p).require (fun _ => trivial) fun _ =>
      (createJob_alike i sub 1).require (fun _ => trivial) (h sub)

end Admission

theorem Single.execute_of_valid {i : Identity} {p : Product} {body : Json}
    (h : (Submission.ofJson p body).check = none) :
    execute i p body = Admission.single i p fun sub job =>
      run (Admission.brief i p sub job 1) (Submission.ofJson p body) := by
  simp only [execute, h]
  rfl

/-! ## Tasks that take no notice of the latch -/

/-- The task neither sets the latch nor looks at it. -/
def Task.Blind {α : Type} : Task α → Prop
  | .done _ => True
  | .call _ next => ∀ o, (next o).Blind
  | .fresh next => ∀ n, (next n).Blind
  | .clock next => ∀ i, (next i).Blind
  | .trip _ => False
  | .latched _ => False
  | .count _ next => next.Blind

section Blind

variable {α β : Type}

theorem Task.Blind.require {t : Task (Except Refusal α)} {f : α → Task (Except Refusal β)}
    (h : t.Blind) (hf : ∀ a, (f a).Blind) : (t.require f).Blind := by
  induction t with
  | done x =>
    cases x with
    | error r => trivial
    | ok a => exact hf a
  | call c next ih => exact fun o => ih o (h o)
  | fresh next ih => exact fun n => ih n (h n)
  | clock next ih => exact fun i => ih i (h i)
  | trip | latched => exact h.elim
  | count m next ih => exact ih h

/-- What such a task does leaves the latch to the acts behind it. -/
theorem Course.agrees_append_iff {t : Task α} {A B : List Act} {s : Strand α} {latch : Bool}
    (h : Course t A s) (ht : t.Blind) : Agrees latch (A ++ B) ↔ Agrees latch B := by
  induction h with
  | rest | ended | waiting | crashed => rfl
  | call o _ ih => exact ih (ht o)
  | fresh n _ ih => exact ih (ht n)
  | clock i _ ih => exact ih (ht i)
  | trip | latched => exact ht.elim
  | count _ ih => exact ih ht

theorem Admission.single_blind {i : Identity} {p : Product}
    {rest : Subscription → JobRef → Task (Except Refusal α)} (h : ∀ sub job, (rest sub job).Blind) :
    (single i p rest).Blind := by
  have hgrading : (grading i p).Blind := by
    unfold grading
    split
    · intro o
      cases o <;> trivial
    · trivial
  exact .require (fun _ => trivial) fun sub => hgrading.require fun _ =>
    .require (fun _ => trivial) (h sub)

end Blind

namespace Bulk

/-! ## The run -/

theorem History.of_row_zero {R : History} (h : ∀ x ∈ R, x.1 = .row 0) : R.of (.row 0) = R.acts := by
  induction R with
  | nil => rfl
  | cons x R ih =>
    have hx : x.1 = .row 0 := h x List.mem_cons_self
    have hR := ih fun y hy => h y (List.mem_cons_of_mem x hy)
    simpa [History.of, History.acts, hx] using hR

namespace Run.Account

variable {plan : Plan} {A B : List Act} {R : History} {r : Run} {s : Submission}

theorem of_row_zero (h : Account plan A R B r) (hlen : r.rows.length ≤ 1) :
    R.of (.row 0) = R.acts := by
  apply History.of_row_zero
  intro x hx
  obtain ⟨i, hi, hw⟩ := h.started x hx
  obtain rfl : i = 0 := by omega
  exact hw

theorem course_row (h : Account plan A R B r) {row : RowState} (hrows : r.rows = [row])
    (hsub : row.submission = s) : Course (Row.handle plan.brief s) R.acts row.strand := by
  rw [← h.of_row_zero (by simp [hrows]), ← hsub]
  exact h.course (by simp [hrows])

/-- **A run of one row does what a single submission does**, as long as nothing crashes in a
call. -/
theorem course_single (h : Account plan A R B r) (hone : plan.submissions = [s])
    (hcalm : ∀ a ∈ (History.solo Who.main A ++ R ++ .solo .main B).acts, a.isCrash = false) :
    ∃ st, Course (Single.run plan.brief s) (History.solo Who.main A ++ R ++ .solo .main B).acts st ∧
      ∀ o, r.phase = .over o → ∃ x, st = .ended x := by
  simp only [History.acts_append, History.acts_solo] at hcalm ⊢
  have hnone : A ++ History.acts ([] : History) ++ [] = A := by simp [History.acts]
  cases h.stage with
  | opening hopen hnil hc hB =>
    have hR : R = [] := h.rows_nil hnil
    subst hB hR
    rw [hnone]
    refine ⟨_, hc.bind _, ?_⟩
    intro o hph
    rw [hph] at hopen
    cases hopen
  | overdrawn hcr hnil hc _ hB =>
    have hR : R = [] := h.rows_nil hnil
    subst hB hR
    rw [hnone]
    refine ⟨_, hc.bind _, ?_⟩
    intro o hph
    rw [hph] at hcr
    cases hcr
  | @fanning rest _ hrest hsub hc _ hB =>
    subst hB
    have hover : ∀ o, r.phase ≠ .over o := by
      intro o hph
      rw [hph] at hrest
      cases hrest
    rw [hone] at hsub
    cases hrows : r.rows with
    | nil =>
      have hR : R = [] := h.rows_nil hrows
      subst hR
      rw [hnone]
      exact ⟨_, hc.bind _, fun o hph => absurd hph (hover o)⟩
    | cons row rows =>
      rw [hrows] at hsub
      obtain ⟨hs, hnil⟩ := List.cons_eq_cons.mp hsub
      obtain ⟨hrows', rfl⟩ := List.append_eq_nil_iff.mp hnil
      cases List.map_eq_nil_iff.mp hrows'
      have hrow := h.course_row hrows hs
      rw [List.append_nil]
      exact ⟨_, hc.followed (hrow.bind _), fun o hph => absurd hph (hover o)⟩
  | closing hcl hsub hall hc _ hB =>
    rw [hone] at hsub
    obtain ⟨row, hrows, hs⟩ := List.map_eq_singleton_iff.mp hsub
    have hrow := h.course_row hrows hs
    -- the row is over and did not crash
    obtain ⟨result, hresult⟩ := hrow.ended_of_calm (hall row (by simp [hrows]))
      fun a ha => hcalm a (by simp [ha])
    rw [hresult] at hrow
    rw [List.append_assoc]
    generalize r.phase = phase at hcl ⊢
    cases hcl with
    | finalizing hne =>
      refine ⟨_, hc.followed (hrow.followed (hB.bind _)), ?_⟩
      intro o hph
      cases hph
    | @«over» f =>
      have hend : Course (Single.run plan.brief s) (A ++ (R.acts ++ (B ++ [])))
          (.ended (Single.verdict result f)) := hc.followed (hrow.followed (hB.followed (.ended _)))
      rw [List.append_nil] at hend
      exact ⟨_, hend, fun o _ => ⟨_, rfl⟩⟩
    | crashed =>
      obtain ⟨a, ha, hcrash⟩ := hB.isCrash_mem.mpr rfl
      rw [hcalm a (by simp [ha])] at hcrash
      cases hcrash

end Run.Account

/-! ## From the client's request on -/

section Upload

variable {i : Identity} {p : Product} {pace : Pace} {csv : Text.Bytes} {row : List String}

theorem Plan.prepare_of_one (hmet : i.quotaType = "0") (hrow : dataRows p csv = .ok [row]) :
    prepare i p pace csv = Admission.single i p fun sub job => .count (.jobCreated p)
      (.done (.ok ⟨Admission.brief i p sub job 1, [Submission.ofRow p row], pace⟩)) := by
  have hquota (sub : Subscription) : quota i sub 1 = .done (.ok ()) := by
    simp [quota, Identity.isMetered_eq_false_iff.mpr hmet]
  simp only [prepare, hrow, List.length_singleton, hquota]
  rfl

/-- All that is done for an upload of one row, as one task. -/
def Plan.prepareAndRun (i : Identity) (p : Product) (pace : Pace) (csv : Text.Bytes)
    (row : List String) : Task (Except Refusal PartnerAnswer) :=
  (prepare i p pace csv).require fun plan => Single.run plan.brief (Submission.ofRow p row)

/-- **An upload of one row is like the single submission** of the same data. -/
theorem Plan.prepareAndRun_alike (hmet : i.quotaType = "0") (hrow : dataRows p csv = .ok [row])
    {body : Json} (hsame : Submission.ofJson p body = Submission.ofRow p row)
    (hvalid : (Submission.ofRow p row).check = none) :
    (prepareAndRun i p pace csv row).Alike (fun _ _ => True) (Single.execute i p body) := by
  rw [prepareAndRun, prepare_of_one hmet hrow, Admission.single_require,
    Single.execute_of_valid (hsame ▸ hvalid), hsame]
  exact Admission.single_alike fun sub job => .countLeft (Single.run_alike _ _)

theorem Plan.Prepared.submissions_of_one {job : JobRef} {A : List Act} {plan : Plan}
    (h : Prepared i p pace csv job A plan) (hrow : dataRows p csv = .ok [row]) :
    plan.submissions = [Submission.ofRow p row] := by
  cases h with
  | mk hrows =>
    cases hrows.symm.trans hrow
    rfl

theorem Dispatch.over_of_answer {r₀ r : Run} {es : List Bulk.Event} (hfresh : r₀.Fresh)
    (h : r₀.steps? es = some r) (hfits : r₀.plan.pace.capFits = true)
    (hcalm : ∀ a ∈ (r₀.history es).acts, a.isCrash = false) (gone : Bool)
    (hans : (running r gone).answer?.isSome = true) : ∃ o, r.phase = .over o := by
  have hmain : ∀ a ∈ (r₀.history es).of .main, a.isCrash = false := fun a ha =>
    hcalm a (History.mem_acts_of_mem_of ha)
  have hne := Run.phase_ne_crashed hfresh h hmain hfits
  cases gone with
  | true => cases hans
  | false =>
    cases hph : r.phase with
    | «over» o => exact ⟨o, rfl⟩
    | crashed => exact absurd hph hne
    | _ => simp [answer?, Run.answer?, hph] at hans

/-- The acts of an upload of one row are a course of that task, as long as nothing crashes in a
call. -/
theorem Dispatch.course_of_one {shared : Shared} {now : Nat} {journal : List (Entry Who)}
    {es : List Bulk.Event} {d : Dispatch}
    (h : (new (Plan.prepare i p pace csv) shared now journal).steps? (es.map .run) = some d)
    (hmet : i.quotaType = "0") (hrow : Plan.dataRows p csv = .ok [row]) :
    let H := (new (Plan.prepare i p pace csv) shared now journal).history (es.map .run)
    (∀ a ∈ H.acts, a.isCrash = false) →
    ∃ st, Course (Plan.prepareAndRun i p pace csv row) H.acts st ∧ Agrees false H.acts ∧
      (pace.capFits = true → d.answer?.isSome = true → ∃ x, st = .ended x) := by
  intro H hcalm
  have hacc : Account _ H d := account_of_steps h
  have hblind : (Plan.prepare i p pace csv).Blind := by
    rw [Plan.prepare_of_one hmet hrow]
    exact Admission.single_blind fun _ _ => trivial
  have hagrees {A B : List Act} {s : Strand (Except Refusal Plan)}
      (hc : Course (Plan.prepare i p pace csv) A s) (hB : Agrees false B) :
      Agrees false (A ++ B) := (hc.agrees_append_iff hblind).mpr hB
  clear_value H
  cases hacc with
  | preparing hne hc =>
    rw [History.acts_solo]
    exact ⟨_, hc.bind _, by simpa using hagrees (B := []) hc trivial, nofun⟩
  | stopped hc =>
    rw [History.acts_solo]
    exact ⟨_, hc.bind _, by simpa using hagrees (B := []) hc trivial, nofun⟩
  | @refused _ A r hc =>
    rw [History.acts_solo]
    have hdone : Course (.done (.error r) : Task (Except Refusal PartnerAnswer)) []
      (.ended (.error r)) := .ended _
    have hend : Course (Plan.prepareAndRun i p pace csv row) (A ++ []) (.ended (.error r)) :=
      hc.followed hdone
    rw [List.append_nil] at hend
    exact ⟨_, hend, by simpa using hagrees (B := []) hc trivial, fun _ _ => ⟨_, rfl⟩⟩
  | @running A es' r gone r₀ hc hfresh hes =>
    rw [History.acts_append, History.acts_solo] at hcalm ⊢
    obtain ⟨job, plan, heq, hprep⟩ := (Plan.prepare_ended hc).resolve_left nofun
    cases heq
    obtain ⟨rows, hrows, _, _, hpace⟩ := hprep.plan_eq
    have hone := hprep.submissions_of_one hrow
    have hagree := (Run.latch_of_steps hfresh hes).1
    have hans (hfits : pace.capFits = true) := over_of_answer hfresh hes (hpace ▸ hfits)
      (fun a ha => hcalm a (List.mem_append_right _ ha)) gone
    obtain ⟨P, R, B, hacc, hH⟩ := Run.account_of_steps hfresh hes
    rw [hH] at hcalm hagree ⊢
    obtain ⟨st, hcourse, hend⟩ := hacc.course_single hone
      fun a ha => hcalm a (List.mem_append_right _ ha)
    refine ⟨st, hc.followed hcourse, hagrees hc hagree, ?_⟩
    intro hfits ha
    obtain ⟨o, hph⟩ := hans hfits ha
    exact hend o hph

end Upload

end Bulk

end Vetting
