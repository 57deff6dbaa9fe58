import Vetting.Proofs.JobCourse
import Vetting.Proofs.RunStep

/-! # What a run has done at any time

The history of a run falls into three parts: what the main strand did to open the job, what the
rows did, and what the main strand did to close it. `Run.Account` says so of every run, together
with where its strands stand; the rows are one behind the other in none of this, only in the order
in which they were started. Since a row that is over does nothing more and the job is closed only
when all rows are over, no row acts after the closing has begun. -/

namespace Vetting.Bulk

/-- The rows still to be started, while rows are being started or waited for. -/
def Phase.rest? : Phase → Option (List Submission)
  | .admitting rest => some rest
  | .pausing _ rest => some rest
  | .acquiring rest => some rest
  | .joining => some []
  | _ => none

/-- The strand that opens the job stands at `s`. -/
inductive Phase.OpensAt : Phase → Strand (Except ServiceError Unit) → Prop where
  | starting {s} : s ≠ .crashed → OpensAt (.starting s) s
  | crashed : OpensAt .crashed .crashed

/-- The strand that closes the job stands at `s`. -/
inductive Phase.ClosesAt : Phase → Strand (Except ServiceError Tracking.Final) → Prop where
  | finalizing {s} : s ≠ .crashed → ClosesAt (.finalizing s) s
  | over {f} : ClosesAt (.over f) (.ended f)
  | crashed : ClosesAt .crashed .crashed

theorem Phase.OpensAt.rest?_eq {ph : Phase} {s : Strand (Except ServiceError Unit)}
    (h : ph.OpensAt s) : ph.rest? = none := by cases h <;> rfl

theorem Phase.ClosesAt.rest?_eq {ph : Phase} {s : Strand (Except ServiceError Tracking.Final)}
    (h : ph.ClosesAt s) : ph.rest? = none := by cases h <;> rfl

theorem map_submission_set {rows : List RowState} {i : Nat} {row row' : RowState}
    (hrow : rows[i]? = some row) (hsub : row'.submission = row.submission) :
    (rows.set i row').map RowState.submission = rows.map RowState.submission := by
  apply List.ext_getElem?
  intro j
  simp only [List.getElem?_map, List.getElem?_set]
  split
  · next hij =>
    subst hij
    split
    · simp [hrow, hsub]
    · next hi => simp [List.getElem?_eq_none (by omega : rows.length ≤ i)]
  · rfl

namespace Run

/-- How far a run of `plan` has come, when its main strand did `A` before its rows and `B` after
them. -/
inductive Stage (plan : Plan) (A B : List Act) (r : Run) : Prop where
  | opening {s} : r.phase.OpensAt s → r.rows = [] → Course (Tracking.start plan.brief.job) A s →
      B = [] → Stage plan A B r
  | overdrawn {o} : r.phase = .crashed → r.rows = [] →
      Course (Tracking.start plan.brief.job) A (.ended o) → plan.pace.capFits = false → B = [] →
      Stage plan A B r
  | fanning {rest o} : r.phase.rest? = some rest →
      r.rows.map RowState.submission ++ rest = plan.submissions →
      Course (Tracking.start plan.brief.job) A (.ended o) → plan.pace.capFits = true → B = [] →
      Stage plan A B r
  | closing {s o} : r.phase.ClosesAt s → r.rows.map RowState.submission = plan.submissions →
      (∀ row ∈ r.rows, row.strand.isOver = true) →
      Course (Tracking.start plan.brief.job) A (.ended o) → plan.pace.capFits = true →
      Course (Tracking.attempt plan.brief.job plan.brief.total) B s → Stage plan A B r

/-- The parts of a run's history: the main strand did `A`, the rows did `R`, the main strand did
`B`. -/
structure Account (plan : Plan) (A : List Act) (R : History) (B : List Act) (r : Run) : Prop where
  plan_eq : r.plan = plan
  stage : Stage plan A B r
  /-- Only rows that were started act. -/
  started : ∀ x ∈ R, ∃ i < r.rows.length, x.1 = .row i
  course : ∀ {i row}, r.rows[i]? = some row →
    Course (Row.handle plan.brief row.submission) (R.of (.row i)) row.strand
  /-- Only rows that are over have been taken note of. -/
  joined : ∀ row ∈ r.rows, row.joined = true → row.strand.isOver = true

variable {plan : Plan} {A B : List Act} {R : History} {r r' : Run}

@[simp] theorem setStrand_phase (r : Run) (i : Nat) (row : RowState) (s : Strand Row.Result) :
    (r.setStrand i row s).phase = r.phase := by
  simp only [setStrand, release]; split <;> rfl

@[simp] theorem setStrand_rows (r : Run) (i : Nat) (row : RowState) (s : Strand Row.Result) :
    (r.setStrand i row s).rows = r.rows.set i { row with strand := s } := by
  simp only [setStrand, release]; split <;> rfl

@[simp] theorem setStrand_plan (r : Run) (i : Nat) (row : RowState) (s : Strand Row.Result) :
    (r.setStrand i row s).plan = r.plan := by
  simp only [setStrand, release]; split <;> rfl

theorem Stage.congr (h : Stage plan A B r) (hph : r'.phase = r.phase) (hrows : r'.rows = r.rows) :
    Stage plan A B r' := by
  cases h with
  | opening hopen hnil hc hB => exact .opening (hph ▸ hopen) (hrows ▸ hnil) hc hB
  | overdrawn hcr hnil hc hcap hB => exact .overdrawn (hph ▸ hcr) (hrows ▸ hnil) hc hcap hB
  | fanning hrest hsub hc hcap hB => exact .fanning (hph ▸ hrest) (hrows ▸ hsub) hc hcap hB
  | closing hcl hsub hall hc hcap hB =>
    exact .closing (hph ▸ hcl) (hrows ▸ hsub) (hrows ▸ hall) hc hcap hB

namespace Account

def Grown (plan : Plan) (A : List Act) (R : History) (B : List Act) (X : History) (r : Run) :
    Prop :=
  ∃ A' R' B', Account plan A' R' B' r ∧
    History.solo .main A' ++ R' ++ .solo .main B' = .solo .main A ++ R ++ .solo .main B ++ X

theorem of_fresh (h : r.Fresh) : Account r.plan [] [] [] r where
  plan_eq := rfl
  stage := by
    refine .opening (s := .ready (Tracking.start r.plan.brief.job)) ?_ h.rows_eq (.rest _) rfl
    rw [h.phase_eq]
    exact .starting nofun
  started := by simp
  course := by simp [h.rows_eq]
  joined := by simp [h.rows_eq]

/-- Rows that are as they were keep what was said of them. -/
theorem of_rows {A' B' : List Act} (h : Account plan A R B r) (hplan : r'.plan = r.plan)
    (hrows : r'.rows = r.rows) (hstage : Stage plan A' B' r') : Account plan A' R B' r' where
  plan_eq := hplan.trans h.plan_eq
  stage := hstage
  started := hrows ▸ h.started
  course := hrows ▸ h.course
  joined := hrows ▸ h.joined

theorem rows_nil (h : Account plan A R B r) (hrows : r.rows = []) : R = [] := by
  apply List.eq_nil_iff_forall_not_mem.mpr
  intro x hx
  obtain ⟨i, hi, _⟩ := h.started x hx
  simp [hrows] at hi

theorem closing_nil (h : Account plan A R B r) {i : Nat} {row : RowState}
    (hrow : r.rows[i]? = some row) (hover : row.strand.isOver = false) : B = [] := by
  cases h.stage with
  | opening _ _ _ hB => exact hB
  | overdrawn _ _ _ _ hB => exact hB
  | fanning _ _ _ _ hB => exact hB
  | closing _ _ hall =>
    rw [hall row (List.mem_of_getElem? hrow)] at hover
    cases hover

theorem start (h : Account plan A R B r) {s s' : Strand (Except ServiceError Unit)} {X : List Act}
    {sh : Shared} (hph : r.phase = .starting s) (hs : s.Step r.shared X s' sh)
    (hph' : r'.phase.OpensAt s') (hplan : r'.plan = r.plan) (hrows : r'.rows = r.rows) :
    Grown plan A R B (.solo .main X) r' := by
  cases h.stage with
  | opening hopen hnil hc hB =>
    rw [hph] at hopen
    cases hopen
    have hR : R = [] := h.rows_nil hnil
    subst hB hR
    exact ⟨A ++ X, [], [], h.of_rows hplan hrows
      (.opening hph' (hrows.trans hnil) (hc.step hs) rfl), by simp [History.solo]⟩
  | overdrawn hcr => rw [hph] at hcr; cases hcr
  | fanning hrest => rw [hph] at hrest; cases hrest
  | closing hcl => rw [hph] at hcl; cases hcl

theorem opened (h : Account plan A R B r) {o : Except ServiceError Unit}
    (hph : r.phase = .starting (.ended o)) :
    r.rows = [] ∧ Course (Tracking.start plan.brief.job) A (.ended o) ∧ B = [] := by
  cases h.stage with
  | opening hopen hnil hc hB =>
    rw [hph] at hopen
    cases hopen
    exact ⟨hnil, hc, hB⟩
  | overdrawn hcr => rw [hph] at hcr; cases hcr
  | fanning hrest => rw [hph] at hrest; cases hrest
  | closing hcl => rw [hph] at hcl; cases hcl

theorem allJoined (h : Account plan A R B r) (hph : r.phase = .joining)
    (hall : r.rows.all (·.joined) = true)
    (hph' : r'.phase = .finalizing (.ready (Tracking.attempt plan.brief.job plan.brief.total)))
    (hplan : r'.plan = r.plan) (hrows : r'.rows = r.rows) : Account plan A R B r' := by
  cases h.stage with
  | opening hopen => rw [hph] at hopen; cases hopen
  | overdrawn hcr => rw [hph] at hcr; cases hcr
  | fanning hrest hsub hc hcap hB =>
    rw [hph] at hrest
    cases hrest
    rw [List.append_nil] at hsub
    have hover : ∀ row ∈ r.rows, row.strand.isOver = true := fun row hrow =>
      h.joined row hrow (List.all_eq_true.mp hall row hrow)
    subst hB
    exact h.of_rows hplan hrows
      (.closing (hph' ▸ .finalizing nofun) (hrows ▸ hsub) (hrows ▸ hover) hc hcap (.rest _))
  | closing hcl => rw [hph] at hcl; cases hcl

theorem finish (h : Account plan A R B r) {s s' : Strand (Except ServiceError Tracking.Final)}
    {X : List Act} {sh : Shared} (hph : r.phase = .finalizing s) (hs : s.Step r.shared X s' sh)
    (hph' : r'.phase.ClosesAt s') (hplan : r'.plan = r.plan) (hrows : r'.rows = r.rows) :
    Grown plan A R B (.solo .main X) r' := by
  cases h.stage with
  | opening hopen => rw [hph] at hopen; cases hopen
  | overdrawn hcr => rw [hph] at hcr; cases hcr
  | fanning hrest => rw [hph] at hrest; cases hrest
  | closing hcl hsub hall hc hcap hB =>
    rw [hph] at hcl
    cases hcl
    exact ⟨A, R, B ++ X, h.of_rows hplan hrows
      (.closing hph' (hrows ▸ hsub) (hrows ▸ hall) hc hcap (hB.step hs)), by simp [History.solo]⟩

theorem finished (h : Account plan A R B r) {f : Except ServiceError Tracking.Final}
    (hph : r.phase = .finalizing (.ended f)) (hph' : r'.phase = .over f)
    (hplan : r'.plan = r.plan) (hrows : r'.rows = r.rows) : Account plan A R B r' := by
  cases h.stage with
  | opening hopen => rw [hph] at hopen; cases hopen
  | overdrawn hcr => rw [hph] at hcr; cases hcr
  | fanning hrest => rw [hph] at hrest; cases hrest
  | closing hcl hsub hall hc hcap hB =>
    rw [hph] at hcl
    cases hcl
    exact h.of_rows hplan hrows
      (.closing (hph' ▸ .over) (hrows ▸ hsub) (hrows ▸ hall) hc hcap hB)

/-- A run that could give out its permits crashes only in a call of its main strand. -/
theorem exists_crash (h : Account plan A R B r) (hph : r.phase = .crashed)
    (hcap : plan.pace.capFits = true) : ∃ a ∈ A ++ B, a.isCrash = true := by
  cases h.stage with
  | opening hopen _ hc hB =>
    rw [hph] at hopen
    cases hopen
    obtain ⟨a, ha, hcrash⟩ := hc.isCrash_mem.mpr rfl
    exact ⟨a, List.mem_append_left B ha, hcrash⟩
  | overdrawn _ _ _ hover => rw [hcap] at hover; cases hover
  | fanning hrest => rw [hph] at hrest; cases hrest
  | closing hcl _ _ _ _ hB =>
    rw [hph] at hcl
    cases hcl
    obtain ⟨a, ha, hcrash⟩ := hB.isCrash_mem.mpr rfl
    exact ⟨a, List.mem_append_right A ha, hcrash⟩

/-- A run that could not give out its permits has no rows and no end. -/
theorem of_not_fits (h : Account plan A R B r) (hcap : plan.pace.capFits = false) :
    R = [] ∧ B = [] ∧ ∀ o, r.phase ≠ .over o := by
  cases h.stage with
  | opening hopen hnil _ hB =>
    refine ⟨h.rows_nil hnil, hB, ?_⟩
    intro o hph
    rw [hph] at hopen
    cases hopen
  | overdrawn hcr hnil _ _ hB =>
    refine ⟨h.rows_nil hnil, hB, ?_⟩
    intro o hph
    rw [hph] at hcr
    cases hcr
  | fanning _ _ _ hfits => rw [hfits] at hcap; cases hcap
  | closing _ _ _ _ hfits => rw [hfits] at hcap; cases hcap

theorem fan (h : Account plan A R B r) {rest rest' : List Submission}
    (hph : r.phase.rest? = some rest) (hph' : r'.phase.rest? = some rest')
    (hplan : r'.plan = r.plan) (hrows : r'.rows = r.rows) (hrest : rest' = rest) :
    Account plan A R B r' := by
  subst hrest
  cases h.stage with
  | opening hopen => rw [hopen.rest?_eq] at hph; cases hph
  | overdrawn hcr => rw [hcr] at hph; cases hph
  | fanning hrest hsub hc hcap hB =>
    rw [hph] at hrest
    cases hrest
    exact h.of_rows hplan hrows (.fanning hph' (hrows ▸ hsub) hc hcap hB)
  | closing hcl => rw [hcl.rest?_eq] at hph; cases hph

theorem spawn (h : Account plan A R B r) {s : Submission} {rest : List Submission}
    (hph : r.phase.rest? = some (s :: rest)) (hph' : r'.phase.rest? = some rest)
    (hplan : r'.plan = r.plan)
    (hrows : r'.rows = r.rows ++ [⟨s, .ready (Row.handle plan.brief s), false⟩]) :
    Account plan A R B r' where
  plan_eq := hplan.trans h.plan_eq
  stage := by
    cases h.stage with
    | opening hopen => rw [hopen.rest?_eq] at hph; cases hph
    | overdrawn hcr => rw [hcr] at hph; cases hph
    | fanning hrest hsub hc hcap hB =>
      rw [hph] at hrest
      cases hrest
      exact .fanning hph' (by simp [hrows, ← hsub]) hc hcap hB
    | closing hcl => rw [hcl.rest?_eq] at hph; cases hph
  started := by
    intro x hx
    obtain ⟨i, hi, hw⟩ := h.started x hx
    exact ⟨i, by simp [hrows]; omega, hw⟩
  course := by
    intro i row hrow
    rw [hrows] at hrow
    rcases Nat.lt_trichotomy i r.rows.length with hi | rfl | hi
    · rw [List.getElem?_append_left hi] at hrow
      exact h.course hrow
    · have hnil : R.of (.row r.rows.length) = [] := by
        apply History.of_eq_nil
        intro x hx heq
        obtain ⟨i, hi, hw⟩ := h.started x hx
        rw [heq] at hw
        cases hw
        omega
      simp only [List.getElem?_concat_length, Option.some.injEq] at hrow
      subst hrow
      rw [hnil]
      exact .rest _
    · rw [List.getElem?_eq_none (by simp; omega)] at hrow
      cases hrow
  joined := by
    intro row hrow hj
    rw [hrows] at hrow
    rcases List.mem_append.mp hrow with hrow | hrow
    · exact h.joined row hrow hj
    · rw [List.mem_singleton.mp hrow] at hj
      cases hj

/-- The stage of a run whose rows are replaced by rows of the same submissions, while some row is
under way or the rows are waited for. -/
theorem stage_of_submissions (h : Account plan A R B r) {i : Nat} {row : RowState}
    (hrow : r.rows[i]? = some row) (hlive : row.strand.isOver = false ∨ r.phase = .joining)
    (hph : r'.phase = r.phase)
    (hsub : r'.rows.map RowState.submission = r.rows.map RowState.submission) :
    Stage plan A B r' := by
  cases h.stage with
  | opening _ hnil => simp [hnil] at hrow
  | overdrawn _ hnil => simp [hnil] at hrow
  | fanning hrest hs hc hcap hB => exact .fanning (hph ▸ hrest) (hsub ▸ hs) hc hcap hB
  | closing hcl _ hall =>
    rcases hlive with hover | hj
    · rw [hall row (List.mem_of_getElem? hrow)] at hover
      cases hover
    · rw [hj] at hcl
      cases hcl

theorem row (h : Account plan A R B r) {i : Nat} {row : RowState} {X : List Act}
    {s' : Strand Row.Result} {sh : Shared} (hrow : r.rows[i]? = some row)
    (hs : row.strand.Step r.shared X s' sh) (hph : r'.phase = r.phase) (hplan : r'.plan = r.plan)
    (hrows : r'.rows = r.rows.set i { row with strand := s' }) :
    Account plan A (R ++ .solo (.row i) X) B r' where
  plan_eq := hplan.trans h.plan_eq
  stage := h.stage_of_submissions hrow (.inl hs.not_over) hph
    (hrows ▸ map_submission_set hrow rfl)
  started := by
    intro x hx
    have hi : i < r.rows.length := (List.getElem?_eq_some_iff.mp hrow).1
    rw [hrows, List.length_set]
    rcases List.mem_append.mp hx with hx | hx
    · exact h.started x hx
    · exact ⟨i, hi, (History.mem_solo.mp hx).1⟩
  course := by
    intro j row' hj
    rw [hrows, List.getElem?_set] at hj
    rw [History.of_append]
    split at hj
    · next hij =>
      subst hij
      split at hj
      · cases hj
        rw [History.of_solo_self]
        exact (h.course hrow).step hs
      · cases hj
    · next hij =>
      rw [History.of_solo_of_ne (by simpa using hij), List.append_nil]
      exact h.course hj
  joined := by
    intro row' hrow' hj
    rw [hrows] at hrow'
    rcases List.mem_or_eq_of_mem_set hrow' with hrow' | rfl
    · exact h.joined row' hrow' hj
    · have hover := h.joined row (List.mem_of_getElem? hrow) hj
      rw [hs.not_over] at hover
      cases hover

theorem join (h : Account plan A R B r) {i : Nat} {row : RowState} (hrow : r.rows[i]? = some row)
    (hover : row.strand.isOver = true) (hj : r.phase = .joining) (hph : r'.phase = r.phase)
    (hplan : r'.plan = r.plan) (hrows : r'.rows = r.rows.set i { row with joined := true }) :
    Account plan A R B r' where
  plan_eq := hplan.trans h.plan_eq
  stage := h.stage_of_submissions hrow (.inr hj) hph (hrows ▸ map_submission_set hrow rfl)
  started := by
    rw [hrows, List.length_set]
    exact h.started
  course := by
    intro j row' hj
    rw [hrows, List.getElem?_set] at hj
    split at hj
    · next hij =>
      subst hij
      split at hj
      · have hc := h.course hrow
        cases hj
        exact hc
      · cases hj
    · exact h.course hj
  joined := by
    intro row' hrow' hj
    rw [hrows] at hrow'
    rcases List.mem_or_eq_of_mem_set hrow' with hrow' | rfl
    · exact h.joined row' hrow' hj
    · exact hover

/-- **Every step keeps the account**, and adds its acts to the part of its strand. -/
theorem step (h : Account plan A R B r) {X : History} (hs : Step r X r') :
    Grown plan A R B X r' := by
  have keep (h' : Account plan A R B r') : Grown plan A R B [] r' := ⟨A, R, B, h', by simp⟩
  cases hs with
  | start hph hs hne => exact h.start hph hs (.starting hne) rfl rfl
  | startCrash hph hs => exact h.start hph hs .crashed rfl rfl
  | opened hph hcap =>
    obtain ⟨hnil, hc, hB⟩ := h.opened hph
    rw [h.plan_eq] at hcap
    exact keep (h.of_rows rfl rfl (.fanning rfl (by simp [hnil, h.plan_eq]) hc hcap hB))
  | overdrawn hph hcap =>
    obtain ⟨hnil, hc, hB⟩ := h.opened hph
    rw [h.plan_eq] at hcap
    exact keep (h.of_rows rfl rfl (.overdrawn rfl hnil hc hcap hB))
  | passed hph => exact keep (h.fan (by rw [hph]; rfl) rfl rfl rfl rfl)
  | held hph => exact keep (h.fan (by rw [hph]; rfl) rfl rfl rfl rfl)
  | released hph => exact keep (h.fan (by rw [hph]; rfl) rfl rfl rfl rfl)
  | spawned hph => exact keep (h.spawn (by rw [hph]; rfl) rfl rfl (by rw [← h.plan_eq]; rfl))
  | allStarted hph =>
    refine keep (h.fan ?_ rfl rfl rfl rfl)
    rcases hph with hph | hph <;> rw [hph] <;> rfl
  | joined hph hrow _ hover => exact keep (h.join hrow hover hph rfl rfl rfl)
  | allJoined hph hall => exact keep (h.allJoined hph hall (by rw [← h.plan_eq]) rfl rfl)
  | finish hph hs hne => exact h.finish hph hs (.finalizing hne) rfl rfl
  | finishCrash hph hs => exact h.finish hph hs .crashed rfl rfl
  | finished hph => exact keep (h.finished hph rfl rfl rfl)
  | @row i _ X s' _ hrow hs =>
    have hB : B = [] := h.closing_nil hrow hs.not_over
    subst hB
    exact ⟨A, _, [], h.row hrow hs (by simp) (by simp) (by simp), by simp [History.solo]⟩

end Account

/-- **Every run has an account.** -/
theorem account_of_steps {r₀ : Run} {es : List Event} (hfresh : r₀.Fresh)
    (h : r₀.steps? es = some r) : ∃ A R B, Account r₀.plan A R B r ∧
      r₀.history es = .solo .main A ++ R ++ .solo .main B := by
  refine steps_induction (P := fun H r => ∃ A R B, Account r₀.plan A R B r ∧
    H = .solo .main A ++ R ++ .solo .main B) h ⟨[], [], [], .of_fresh hfresh, rfl⟩ ?_ ?_
  · rintro H r now ⟨A, R, B, hacc, rfl⟩
    exact ⟨A, R, B, hacc.of_rows rfl rfl (hacc.stage.congr rfl rfl), rfl⟩
  · rintro H r X r' ⟨A, R, B, hacc, rfl⟩ hs
    obtain ⟨A', R', B', hacc', heq⟩ := hacc.step hs
    exact ⟨A', R', B', hacc', heq.symm⟩

end Run

end Vetting.Bulk
