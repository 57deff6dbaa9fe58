import Vetting.Proofs.FinalizerAccount
import Vetting.Proofs.JobSeenThrough
import Vetting.Proofs.SuccessCount

/-! # What a run counts

The rows of a run count nothing themselves. The main strand counts each row when it starts it and,
if the row fails, once more when it takes note of the row's end; besides, the closing counts the
job. `tally` is what has been counted for rows that have come so far, and every step of a run keeps
to it. Once all rows have been taken note of it tells how many there are of each kind, and so does
what the rows have asked and been told. -/

namespace Vetting

/-! ## What strands count themselves -/

/-- The task counts nothing, whatever it is told. -/
def Task.CountsNothing {α : Type} : Task α → Prop
  | .done _ => True
  | .call _ next => ∀ o, (next o).CountsNothing
  | .fresh next => ∀ n, (next n).CountsNothing
  | .clock next => ∀ i, (next i).CountsNothing
  | .trip next => ∀ b, (next b).CountsNothing
  | .latched next => ∀ b, (next b).CountsNothing
  | .count _ _ => False

section CountsNothing

variable {α β : Type} {t : Task α} {A : List Act} {s : Strand α}

theorem Task.CountsNothing.bind {f : α → Task β} (h : t.CountsNothing)
    (hf : ∀ a, (f a).CountsNothing) : (t.bind f).CountsNothing := by
  induction t with
  | done a => exact hf a
  | call c next ih => exact fun o => ih o (h o)
  | fresh next ih => exact fun n => ih n (h n)
  | clock next ih => exact fun i => ih i (h i)
  | trip next ih => exact fun b => ih b (h b)
  | latched next ih => exact fun b => ih b (h b)
  | count m next ih => exact h.elim

theorem Task.CountsNothing.require {t : Task (Except Refusal α)}
    {f : α → Task (Except Refusal β)} (h : t.CountsNothing) (hf : ∀ a, (f a).CountsNothing) :
    (t.require f).CountsNothing := by
  refine h.bind fun x => ?_
  cases x with
  | error r => trivial
  | ok a => exact hf a

theorem Course.metricsOf_eq_nil (h : Course t A s) (ht : t.CountsNothing) : metricsOf A = [] := by
  induction h with
  | rest | ended | waiting | crashed => rfl
  | call o _ ih => exact ih (ht o)
  | fresh n _ ih => exact ih (ht n)
  | clock i _ ih => exact ih (ht i)
  | trip b _ ih => exact ih (ht b)
  | latched b _ ih => exact ih (ht b)
  | count => exact ht.elim

end CountsNothing

theorem Tracking.start_countsNothing (job : UInt64) : (start job).CountsNothing := fun _ => trivial

namespace Row

variable {b : Brief} {s : Submission}

theorem log_countsNothing (b : Brief) (s : Submission) (remark : Logbook.Remark) (time : Instant)
    (k : String → Outcome) : (log b s remark time k).CountsNothing :=
  fun _ _ _ _ => trivial

theorem handle_countsNothing (b : Brief) (s : Submission) : (handle b s).CountsNothing := by
  unfold handle
  split
  · exact fun _ => log_countsNothing b s _ _ _
  · refine fun time o => ?_
    cases o with
    | ok a =>
      unfold recordSuccess
      dsimp only
      split
      · exact fun _ => trivial
      · exact log_countsNothing b s _ _ _
    | error e =>
      have hlog : (log b s (Logbook.failed e) time fun id => .failed id e).CountsNothing :=
        log_countsNothing b s _ _ _
      intro before
      cases before with
      | true => exact hlog
      | false => exact fun _ => hlog

/-- How often a row that has ended asked its product, and how often the product failed or answered,
by what the row counts as. -/
theorem asked_of_ended {A : List Act} {r : Result} (h : Course (handle b s) A (.ended r)) :
    s.check.isSome = (r.fault == some .validation) ∧
      (callsOf A).countP Call.isAsk = (if r.fault != some .validation then 1 else 0) ∧
      A.countP Act.isAskError = (if r.fault == some .service then 1 else 0) ∧
      A.countP Act.isAskOk = if r.fault == none then 1 else 0 := by
  rw [← callsOf_visible, ← countP_visible (p := Act.isAskError) (fun _ => rfl) (fun _ => rfl),
    ← countP_visible (p := Act.isAskOk) (fun _ => rfl) (fun _ => rfl)]
  cases hcheck : s.check with
  | some c =>
    unfold handle at h
    rw [hcheck] at h
    cases h with
    | clock i h =>
      obtain ⟨e, o, _, hA, rfl⟩ := log_ended h
      simp [hA, Act.isSilent, Result.fault, Act.call?, Call.isAsk, Act.isAskError, Act.isAskOk]
  | none =>
    have hserved := served_of_ended hcheck h
    generalize visible A = V at hserved ⊢
    cases hserved with
    | failed err o hN => cases hN <;> exact ⟨rfl, rfl, rfl, rfl⟩
    | @succeeded c id a o hrecorded =>
      have hlog := hrecorded.isLog
      cases c with
      | writeLog | confirmLog => exact ⟨rfl, rfl, rfl, rfl⟩
      | _ => cases hlog

end Row

theorem Act.about_ask_of_isAskError {a : Act} (h : a.isAskError = true) :
    ∃ c, a.about? = some c ∧ c.isAsk = true := by
  unfold isAskError at h
  split at h
  · exact ⟨_, rfl, rfl⟩
  · cases h

theorem Act.about_ask_of_isAskOk {a : Act} (h : a.isAskOk = true) :
    ∃ c, a.about? = some c ∧ c.isAsk = true := by
  unfold isAskOk at h
  split at h
  · exact ⟨_, rfl, rfl⟩
  · cases h

theorem unasked_of_about {A : List Act} (h : About (·.isAsk = false) A) :
    (callsOf A).countP Call.isAsk = 0 ∧ A.countP Act.isAskError = 0 ∧ A.countP Act.isAskOk = 0 := by
  have hno (p : Act → Bool) (hp : ∀ a, p a = true → ∃ c, a.about? = some c ∧ c.isAsk = true) :
      A.countP p = 0 := by
    refine List.countP_eq_zero.mpr fun a ha hpa => ?_
    obtain ⟨c, hc, hask⟩ := hp a hpa
    exact h.not_mem hc (by simp [hask]) ha
  refine ⟨List.countP_eq_zero.mpr fun c hc => ?_, ?_, ?_⟩
  · simp [h.of_mem_callsOf hc]
  · exact hno _ fun _ => Act.about_ask_of_isAskError
  · exact hno _ fun _ => Act.about_ask_of_isAskOk

namespace Bulk

/-! ## What is counted for rows -/

/-- The row has ended, with the fault `f` if it has one; else it succeeded. -/
def RowState.endedBy (f : Option RowFault) (row : RowState) : Bool :=
  match row.strand with
  | .ended result => result.fault == f
  | _ => false

theorem RowState.endedBy_eq {row : RowState} {result : Row.Result} (h : row.strand = .ended result)
    (f : Option RowFault) : row.endedBy f = (result.fault == f) := by
  rw [endedBy, h]

/-- What the main strand counts for rows: each row that it has started, and what each row counts as
that it has taken note of. -/
def tally (rows : List RowState) : List Metric :=
  List.replicate rows.length .rowSent ++ (rows.filter (·.joined)).flatMap RowState.metrics

section Tally

variable {rows : List RowState} {row : RowState} {i : Nat}

theorem exists_append_of_getElem? {α : Type} {l : List α} {a : α} (h : l[i]? = some a) :
    ∃ l₁ l₂, l = l₁ ++ a :: l₂ ∧ ∀ b, l.set i b = l₁ ++ b :: l₂ := by
  obtain ⟨hi, rfl⟩ := List.getElem?_eq_some_iff.mp h
  exact ⟨l.take i, l.drop (i + 1), by simp, fun _ =>
    List.set_eq_take_append_cons_drop.trans (if_pos hi)⟩

theorem tally_concat (hj : row.joined = false) :
    (tally (rows ++ [row])).Perm (.rowSent :: tally rows) := by
  simp [tally, hj, List.replicate_succ]

/-- The strand of a row is of no account until the row is taken note of. -/
theorem tally_set_strand (hrow : rows[i]? = some row) (hj : row.joined = false)
    (s : Strand Row.Result) : tally (rows.set i { row with strand := s }) = tally rows := by
  obtain ⟨l₁, l₂, rfl, hset⟩ := exists_append_of_getElem? hrow
  rw [hset]
  simp [tally, hj]

theorem tally_join (hrow : rows[i]? = some row) (hj : row.joined = false) :
    (tally (rows.set i { row with joined := true })).Perm (row.metrics ++ tally rows) := by
  obtain ⟨l₁, l₂, rfl, hset⟩ := exists_append_of_getElem? hrow
  rw [hset]
  have hsame : ({ row with joined := true } : RowState).metrics = row.metrics := rfl
  simp only [tally, List.length_append, List.length_cons, List.filter_append, List.filter_cons, hj,
    List.flatMap_append, List.flatMap_cons, hsame, if_true, Bool.false_eq_true, if_false]
  exact (List.perm_append_comm_assoc ..).append_left _ |>.trans (List.perm_append_comm_assoc ..)

theorem RowState.mem_metrics {m : Metric} (h : m ∈ row.metrics) : ∃ f, m = .rowFailed f := by
  unfold metrics at h
  split at h
  · obtain ⟨f, _, rfl⟩ := List.mem_map.mp h
    exact ⟨f, rfl⟩
  · cases h

theorem RowState.count_metrics (row : RowState) (f : RowFault) :
    row.metrics.count (.rowFailed f) = if row.endedBy (some f) then 1 else 0 := by
  have hcount (fault : Option RowFault) :
      (fault.toList.map Metric.rowFailed).count (.rowFailed f) =
        if fault == some f then 1 else 0 := by
    cases fault with
    | none => rfl
    | some g => simp [List.count_singleton]
  unfold metrics endedBy
  cases row.strand with
  | ended result => exact hcount result.fault
  | ready | waiting | crashed => rfl

theorem count_flatMap_metrics (rows : List RowState) (f : RowFault) :
    (rows.flatMap RowState.metrics).count (.rowFailed f) = rows.countP (·.endedBy (some f)) := by
  induction rows with
  | nil => rfl
  | cons row rows ih =>
    rw [List.flatMap_cons, List.count_append, ih, row.count_metrics, List.countP_cons, Nat.add_comm]

/-- What is counted of rows that have all been taken note of. -/
theorem count_tally (hall : ∀ row ∈ rows, row.joined = true) :
    (tally rows).count .rowSent = rows.length ∧
      (∀ f, (tally rows).count (.rowFailed f) = rows.countP (·.endedBy (some f))) ∧
      (∀ p, (tally rows).count (.jobCreated p) = 0) ∧
      ∀ s, (tally rows).count (.jobFinalized s) = 0 := by
  have hfilter : rows.filter (·.joined) = rows := List.filter_eq_self.mpr hall
  have hnone (m : Metric) (hm : ∀ f, m ≠ .rowFailed f) :
      (rows.flatMap RowState.metrics).count m = 0 := by
    rw [List.count_eq_zero]
    intro hmem
    obtain ⟨row, _, hmem⟩ := List.mem_flatMap.mp hmem
    obtain ⟨f, rfl⟩ := row.mem_metrics hmem
    exact hm f rfl
  rw [tally, hfilter]
  simp only [List.count_append, List.count_replicate]
  refine ⟨?_, fun f => ?_, fun p => ?_, fun s => ?_⟩
  · simp [hnone .rowSent nofun]
  · simp [count_flatMap_metrics]
  · simp [hnone (.jobCreated p) nofun]
  · simp [hnone (.jobFinalized s) nofun]

/-- Rows that have ended succeeded, or were not valid, or were failed by their product. -/
theorem length_eq_endedBy (h : ∀ row ∈ rows, ∃ result, row.strand = .ended result) :
    rows.length = rows.countP (·.endedBy (some .validation)) +
      rows.countP (·.endedBy (some .service)) + rows.countP (·.endedBy none) := by
  induction rows with
  | nil => rfl
  | cons row rows ih =>
    have hrest := ih fun row' hmem => h row' (List.mem_cons_of_mem row hmem)
    obtain ⟨result, hended⟩ := h row List.mem_cons_self
    have hone : (if row.endedBy (some .validation) then 1 else 0) +
        (if row.endedBy (some .service) then 1 else 0) +
          (if row.endedBy none then 1 else 0) = 1 := by
      simp only [RowState.endedBy_eq hended]
      rcases result.fault with _ | _ | _ <;> rfl
    simp only [List.length_cons, List.countP_cons]
    omega

end Tally

namespace Run

variable {r r' : Run} {X : History} {C : List Metric}

theorem perm_of_strand {α : Type} {s s' : Strand α} {A : List Act} {sh sh' : Shared}
    {T : List Metric} (hs : s.Step sh A s' sh') (hc : sh.counted.Perm (T ++ C)) :
    sh'.counted.Perm (T ++ (C ++ metricsOf A)) := by
  rw [hs.counted_eq]
  calc
    ((metricsOf A).reverse ++ sh.counted).Perm (metricsOf A ++ (T ++ C)) :=
      (List.reverse_perm _).append hc
    _ |>.Perm (T ++ C ++ metricsOf A) := List.perm_append_comm
    _ = T ++ (C ++ metricsOf A) := List.append_assoc ..

theorem perm_of_quiet {T K : List Metric} (hc : K.Perm (T ++ C)) :
    K.Perm (T ++ (C ++ metricsOf (History.acts ([] : History)))) := by
  simpa [metricsOf, History.acts] using hc

theorem perm_of_tally {M T T' K : List Metric} (hT : T'.Perm (M ++ T)) (hc : K.Perm (T ++ C)) :
    (M ++ K).Perm (T' ++ C) := by
  calc
    (M ++ K).Perm (M ++ (T ++ C)) := hc.append_left M
    _ = M ++ T ++ C := (List.append_assoc ..).symm
    _ |>.Perm (T' ++ C) := hT.symm.append_right C

/-- **A step counts what its acts count**, a row that it starts and what a row counts as that it
takes note of. -/
theorem Step.counted (h : Step r X r')
    (hjoined : ∀ row ∈ r.rows, row.joined = true → row.strand.isOver = true)
    (hc : r.shared.counted.Perm (tally r.rows ++ C)) :
    r'.shared.counted.Perm (tally r'.rows ++ (C ++ metricsOf X.acts)) := by
  cases h with
  | start _ hs | startCrash _ hs | finish _ hs | finishCrash _ hs =>
    rw [History.acts_solo]
    exact perm_of_strand hs hc
  | spawned => exact perm_of_quiet (perm_of_tally (M := [.rowSent]) (tally_concat rfl) hc)
  | joined _ hrow hj => exact perm_of_quiet (perm_of_tally (tally_join hrow hj) hc)
  | @row i row A s' sh hrow hs =>
    -- A row that has been taken note of is over, so this one has not: it still takes a step.
    have hj : row.joined = false := by
      by_contra hj
      have hover := hjoined row (List.mem_of_getElem? hrow) (by simpa using hj)
      rw [hs.not_over] at hover
      cases hover
    rw [History.acts_solo, setStrand_rows, tally_set_strand hrow hj]
    exact perm_of_strand hs hc
  | _ => exact perm_of_quiet hc

/-- All rows have been taken note of by the time the closing begins. -/
def AllNoted (r : Run) : Prop :=
  (∃ s, r.phase = .finalizing s) ∨ (∃ o, r.phase = .over o) → ∀ row ∈ r.rows, row.joined = true

theorem Step.allNoted (h : Step r X r') (hn : r.AllNoted) : r'.AllNoted := by
  cases h with
  | start | startCrash | opened | overdrawn | passed | held | released | spawned | allStarted
  | finishCrash => rintro (⟨_, hph⟩ | ⟨_, hph⟩) <;> cases hph
  | joined hph =>
    rintro (⟨_, hph'⟩ | ⟨_, hph'⟩)
    · cases hph.symm.trans hph'
    · cases hph.symm.trans hph'
  | allJoined _ hall => exact fun _ row hrow => List.all_eq_true.mp hall row hrow
  | finish hph => exact fun _ => hn (.inl ⟨_, hph⟩)
  | finished hph => exact fun _ => hn (.inl ⟨_, hph⟩)
  | @row i row A s' sh hrow hs =>
    intro hph row' hmem
    rw [setStrand_phase] at hph
    rw [setStrand_rows] at hmem
    rcases List.mem_or_eq_of_mem_set hmem with hmem | rfl
    · exact hn hph row' hmem
    · exact hn hph row (List.mem_of_getElem? hrow)

theorem allNoted_of_steps {r₀ : Run} {es : List Event} (hfresh : r₀.Fresh)
    (h : r₀.steps? es = some r) : r.AllNoted := by
  refine steps_induction (P := fun _ r => r.AllNoted) h ?_ id fun hn hs => hs.allNoted hn
  simp [AllNoted, hfresh.rows_eq]

/-! ## What the rows of a run that is over have asked -/

namespace Account

variable {plan : Plan} {A B : List Act} {R : History}

theorem countP_rows (h : Account plan A R B r) {p : Act → Bool} {q : RowState → Bool}
    (hrow : ∀ i row, r.rows[i]? = some row →
      (R.of (.row i)).countP p = if q row then 1 else 0) :
    R.acts.countP p = r.rows.countP q := by
  rw [History.countP_acts h.started, countP_eq_range, ← sum_range_ite]
  refine Finset.sum_congr rfl fun i hi => ?_
  have hi := List.getElem?_eq_getElem (Finset.mem_range.mp hi)
  simp [hi, hrow i _ hi]

theorem row_ended (h : Account plan A R B r) (hover : ∀ row ∈ r.rows, row.strand.isOver = true)
    (hcalm : ∀ a ∈ R.acts, a.isCrash = false) {i : Nat} {row : RowState}
    (hrow : r.rows[i]? = some row) : ∃ result, row.strand = .ended result ∧
      Course (Row.handle plan.brief row.submission) (R.of (.row i)) (.ended result) := by
  have hc := h.course hrow
  obtain ⟨result, hended⟩ := hc.ended_of_calm (hover row (List.mem_of_getElem? hrow)) fun a ha =>
    hcalm a (History.mem_acts_of_mem_of ha)
  exact ⟨result, hended, hended ▸ hc⟩

/-- What the rows have asked and been told, once they are over, by what each of them counts as. -/
theorem asked_of_over (h : Account plan A R B r)
    (hover : ∀ row ∈ r.rows, row.strand.isOver = true)
    (hcalm : ∀ a ∈ R.acts, a.isCrash = false) :
    r.rows.countP (·.endedBy (some .validation)) =
        (r.rows.map RowState.submission).countP (·.check.isSome) ∧
      (callsOf R.acts).countP Call.isAsk = r.rows.countP (!·.endedBy (some .validation)) ∧
      R.acts.countP Act.isAskError = r.rows.countP (·.endedBy (some .service)) ∧
      R.acts.countP Act.isAskOk = r.rows.countP (·.endedBy none) := by
  have hrow (i : Nat) (row : RowState) (hrow : r.rows[i]? = some row) :
      (row.submission.check.isSome = row.endedBy (some .validation)) ∧
        (callsOf (R.of (.row i))).countP Call.isAsk =
          (if !row.endedBy (some .validation) then 1 else 0) ∧
        (R.of (.row i)).countP Act.isAskError = (if row.endedBy (some .service) then 1 else 0) ∧
        (R.of (.row i)).countP Act.isAskOk = if row.endedBy none then 1 else 0 := by
    obtain ⟨result, hended, hc⟩ := h.row_ended hover hcalm hrow
    simp only [RowState.endedBy_eq hended]
    exact Row.asked_of_ended hc
  refine ⟨?_, ?_, ?_, ?_⟩
  · rw [List.countP_map]
    refine List.countP_congr fun row hmem => ?_
    obtain ⟨i, hi⟩ := List.getElem?_of_mem hmem
    rw [Function.comp_apply, (hrow i row hi).1]
  · rw [countP_callsOf]
    refine h.countP_rows fun i row hi => ?_
    rw [← countP_callsOf]
    exact (hrow i row hi).2.1
  · exact h.countP_rows fun i row hi => (hrow i row hi).2.2.1
  · exact h.countP_rows fun i row hi => (hrow i row hi).2.2.2

theorem submissions_of_over (h : Account plan A R B r) {o : Except ServiceError Tracking.Final}
    (hph : r.phase = .over o) : r.rows.map RowState.submission = plan.submissions := by
  cases h.stage with
  | opening hopen => rw [hph] at hopen; cases hopen
  | overdrawn hcr => rw [hph] at hcr; cases hcr
  | fanning hrest => rw [hph] at hrest; cases hrest
  | closing _ hsub => exact hsub

theorem rows_of_not_fits (h : Account plan A R B r) (hcap : plan.pace.capFits = false) :
    r.rows = [] := by
  cases h.stage with
  | opening _ hnil | overdrawn _ hnil => exact hnil
  | fanning _ _ _ hfits => cases hcap.symm.trans hfits
  | closing _ _ _ _ hfits => cases hcap.symm.trans hfits

/-- Of all strands of a run only the closing counts by itself. -/
theorem metricsOf_eq (h : Account plan A R B r) :
    metricsOf (History.solo Who.main A ++ R ++ .solo .main B).acts = metricsOf B := by
  obtain ⟨_, hA⟩ := h.course_opening
  have hR : metricsOf R.acts = [] := by
    refine List.filterMap_eq_nil_iff.mpr fun a ha => ?_
    obtain ⟨x, hx, rfl⟩ := List.mem_map.mp ha
    obtain ⟨i, hi, hw⟩ := h.started x hx
    have hrow := (h.course (List.getElem?_eq_getElem hi)).metricsOf_eq_nil
      (Row.handle_countsNothing plan.brief _)
    exact List.filterMap_eq_nil_iff.mp hrow x.2 (History.mem_of.mpr (hw ▸ hx))
  simp [hA.metricsOf_eq_nil (Tracking.start_countsNothing _), hR]

theorem main_unasked (h : Account plan A R B r) :
    About (·.isAsk = false) A ∧ About (·.isAsk = false) B := by
  obtain ⟨_, hA⟩ := h.course_opening
  obtain ⟨_, hB⟩ := h.course_closing
  exact ⟨hA.about ⟨rfl, fun _ => trivial⟩, hB.about (Tracking.attempt_asks_of rfl fun _ => rfl)⟩

end Account

end Run

end Bulk

end Vetting
