import Vetting.Proofs.RunCounters

/-! # The counters conserve the rows of an upload

An upload counts its job when it has been created, then its rows as its run does, and the job once
more when it has been closed. These counts are kept by different strands at different times;
`Dispatch.counted_of_steps` says at any time what has been counted by then. When the upload is over
the counts have come into `Balance` with what was done: each row was sent, and has failed for one
reason or succeeded. -/

namespace Vetting

theorem Tracking.Closed.metricsOf_eq {job total : UInt64} {W : List Act}
    {final : Except ServiceError Final} (h : Closed job total W final) :
    metricsOf W = final.toOption.toList.map (.jobFinalized ·.status) := by
  cases final with
  | error e => exact metricsOf_quiet h.quiet
  | ok f => exact h.leaves.2

namespace Bulk

/-! ## The preparation -/

theorem checks_countsNothing (i : Identity) (p : Product) (csv : Text.Bytes) :
    (checks i p csv).CountsNothing := by
  have hsub : (Admission.subscription i p).CountsNothing := fun _ => trivial
  have hquota (sub : Subscription) (n : Nat) : (Plan.quota i sub n).CountsNothing := by
    unfold Plan.quota
    split
    · intro o
      cases o <;> trivial
    · trivial
  have hgrading : (Admission.grading i p).CountsNothing := by
    unfold Admission.grading
    split
    · intro o
      cases o <;> trivial
    · trivial
  refine hsub.require fun sub => ?_
  split
  · trivial
  · exact (hquota ..).require fun _ => hgrading.require fun _ => trivial

theorem Plan.metricsOf_prepare {i : Identity} {p : Product} {pace : Pace} {csv : Text.Bytes}
    {A : List Act} {x : Except Refusal Plan} (h : Course (prepare i p pace csv) A (.ended x)) :
    (∃ r, x = .error r ∧ metricsOf A = []) ∨
      ∃ plan, x = .ok plan ∧ metricsOf A = [.jobCreated p] := by
  rw [prepare_eq] at h
  rcases h.require_ended with ⟨r, rfl, hchecks⟩ | ⟨⟨sub, rows⟩, A₁, A₂, rfl, hchecks, hrest⟩
  · exact .inl ⟨r, rfl, hchecks.metricsOf_eq_nil (checks_countsNothing i p csv)⟩
  have hnone := hchecks.metricsOf_eq_nil (checks_countsNothing i p csv)
  rw [metricsOf_append, hnone, List.nil_append]
  rcases hrest.require_ended with ⟨r, rfl, hcreate⟩ | ⟨job, A₂, A₃, rfl, hcreate, hcount⟩
  · obtain ⟨o, rfl, _⟩ := hcreate.demand_ended
    exact .inl ⟨r, rfl, rfl⟩
  · obtain ⟨o, rfl, _⟩ := hcreate.demand_ended
    cases hcount with
    | count hdone =>
      obtain ⟨rfl, hx⟩ := hdone.of_done
      exact .inr ⟨_, hx.eq_of_ended, rfl⟩

/-! ## The balance of an upload -/

/-- What an upload of `rows` for the product `p` has counted is in balance with what it did, where
`started` are its rows and `a` is what its client is told. -/
structure Balance (p : Product) (rows : List (List String)) (H : History) (started : List RowState)
    (a : Except Refusal Summary) (counted : List Metric) : Prop where
  /-- All rows of the upload were started, in their order. -/
  started_eq : started.map RowState.submission = rows.map (Submission.ofRow p)
  created : ∀ q, counted.count (.jobCreated q) = if q = p then 1 else 0
  sent : counted.count .rowSent = rows.length
  invalid : counted.count (.rowFailed .validation) =
    rows.countP fun row => (Submission.ofRow p row).check.isSome
  failed : counted.count (.rowFailed .service) = H.acts.countP Act.isAskError
  /-- For all rows sent but the invalid ones a product call was made. -/
  asked : counted.count .rowSent =
    counted.count (.rowFailed .validation) + (callsOf H.acts).countP Call.isAsk
  /-- All rows sent but those that failed succeeded. -/
  succeeded : counted.count .rowSent = counted.count (.rowFailed .validation) +
    counted.count (.rowFailed .service) + started.countP (·.endedBy none)
  answered : started.countP (·.endedBy none) = H.acts.countP Act.isAskOk
  /-- A job that was closed is counted once more, by the status that the client is told. -/
  closed : ∀ s, a = .ok s → ∀ status,
    counted.count (.jobFinalized status) = if status = s.status then 1 else 0
  /-- A job that could not be closed is not counted again. -/
  unclosed : ∀ r, a = .error r → ∀ status, counted.count (.jobFinalized status) = 0

/-- What is counted when the preparation has created a job and the run is over: the job, what its
rows count as, and the job once more if it has been closed. -/
theorem count_ledger {rows : List RowState} (hall : ∀ row ∈ rows, row.joined = true) (p : Product)
    (o : Except ServiceError Tracking.Final) :
    let counted := tally rows ++ (.jobCreated p :: o.toOption.toList.map (.jobFinalized ·.status))
    (∀ q, counted.count (.jobCreated q) = if q = p then 1 else 0) ∧
      counted.count .rowSent = rows.length ∧
      (∀ f, counted.count (.rowFailed f) = rows.countP (·.endedBy (some f))) ∧
      ∀ status, counted.count (.jobFinalized status) =
        (o.toOption.toList.map (·.status)).count status := by
  obtain ⟨hsent, hfailed, hcreated, hfinalized⟩ := count_tally hall
  refine ⟨fun q => ?_, ?_, fun f => ?_, fun status => ?_⟩
  · cases o <;> simp [Except.toOption, List.count_cons, hcreated, @eq_comm _ p q]
  · cases o <;> simp [Except.toOption, hsent]
  · cases o <;> simp [Except.toOption, hfailed]
  · cases o <;> simp [Except.toOption, List.count_cons, hfinalized]

theorem balance_of_over {plan : Plan} {P A B : List Act} {R : History} {r : Run} {p : Product}
    {rows : List (List String)} {a : Except Refusal Summary}
    {o : Except ServiceError Tracking.Final}
    (h : Run.Account plan A R B r) (hnoted : r.AllNoted) (hcalm : ∀ a ∈ R.acts, a.isCrash = false)
    (hP : About (·.isAsk = false) P) (hplan : plan.submissions = rows.map (Submission.ofRow p))
    (hph : r.phase = .over o) (ha : r.answer? = some a) :
    Balance p rows (.solo .main P ++ (.solo .main A ++ R ++ .solo .main B)) r.rows a
      (tally r.rows ++ (.jobCreated p :: metricsOf B)) := by
  have hall : ∀ row ∈ r.rows, row.joined = true := hnoted (.inr ⟨o, hph⟩)
  have hover : ∀ row ∈ r.rows, row.strand.isOver = true := fun row hmem =>
    h.joined row hmem (hall row hmem)
  have hB : metricsOf B = o.toOption.toList.map (.jobFinalized ·.status) := by
    rw [← metricsOf_visible]
    exact (h.closed hph).2.2.metricsOf_eq
  have hsub : r.rows.map RowState.submission = rows.map (Submission.ofRow p) :=
    (h.submissions_of_over hph).trans hplan
  have hlength : r.rows.length = rows.length := by simpa using congrArg List.length hsub
  obtain ⟨hcreated, hsent, hfailed, hfinalized⟩ := count_ledger hall p o
  obtain ⟨hcheck, hask, herr, hok⟩ := h.asked_of_over hover hcalm
  obtain ⟨hAask, hAerr, hAok⟩ := unasked_of_about h.main_unasked.1
  obtain ⟨hBask, hBerr, hBok⟩ := unasked_of_about h.main_unasked.2
  obtain ⟨hPask, hPerr, hPok⟩ := unasked_of_about hP
  have hended : ∀ row ∈ r.rows, ∃ result, row.strand = .ended result := fun row hmem => by
    obtain ⟨i, hi⟩ := List.getElem?_of_mem hmem
    exact (h.row_ended hover hcalm hi).imp fun _ => And.left
  rw [hB]
  constructor
  case started_eq => exact hsub
  case created => exact hcreated
  case sent => rw [hsent, hlength]
  case invalid =>
    rw [hfailed, hcheck, hsub, List.countP_map]
    rfl
  case failed =>
    rw [hfailed, ← herr]
    simp [hPerr, hAerr, hBerr]
  case asked =>
    have hsame : (callsOf (History.acts (.solo .main P ++ (.solo .main A ++ R ++
        .solo .main B)))).countP Call.isAsk = r.rows.countP (!·.endedBy (some .validation)) := by
      simp [hPask, hAask, hBask, hask]
    rw [hsent, hfailed, hsame, List.length_eq_countP_add_countP (·.endedBy (some .validation))]
    simp
  case succeeded =>
    rw [hsent, hfailed, hfailed]
    exact length_eq_endedBy hended
  case answered =>
    rw [← hok]
    simp [hPok, hAok, hBok]
  case closed =>
    rintro s rfl status
    rw [hfinalized]
    cases o with
    | error e => simp [Run.answer?, hph] at ha
    | ok f =>
      simp only [Run.answer?, hph, Option.some.injEq, Except.ok.injEq] at ha
      simp [Except.toOption, List.count_singleton, ← ha, Summary.ofFinal, @eq_comm _ status]
  case unclosed =>
    rintro e rfl status
    rw [hfinalized]
    cases o with
    | error e => rfl
    | ok f => simp [Run.answer?, hph] at ha

/-! ## From the client's request on -/

namespace Dispatch

def started : Dispatch → List RowState
  | .running r _ => r.rows
  | _ => []

variable {t : Task (Except Refusal Plan)} {H : History} {d d' : Dispatch} {C : List Metric}

theorem Account.joined (h : Account t H d) :
    ∀ row ∈ d.started, row.joined = true → row.strand.isOver = true := by
  cases h with
  | running _ hfresh hes =>
    obtain ⟨_, _, _, hacc, _⟩ := Run.account_of_steps hfresh hes
    exact hacc.joined
  | preparing | refused | stopped => simp [started]

/-- **An event counts what its acts count**, a row that it starts and what a row counts as that it
takes note of. -/
theorem Account.counted (h : Account t H d) {e : Event} (hs : d.step? e = some d')
    (hc : d.shared.counted.Perm (tally d.started ++ C)) :
    d'.shared.counted.Perm (tally d'.started ++ (C ++ metricsOf (d.acts e).acts)) := by
  have hjoined := h.joined
  cases e with
  | leave =>
    cases d with
    | preparing | running =>
      cases hs
      exact Run.perm_of_quiet hc
    | refused | stopped => cases hs
  | run e =>
    cases d with
    | preparing p =>
      obtain ⟨A, hA, hprep⟩ := prepares_of_prepare? hs
      rw [hA, History.acts_solo]
      cases hprep with
      | went hstep => exact Run.perm_of_strand hstep hc
      | waited | planned | refused => exact Run.perm_of_quiet hc
    | running r gone =>
      obtain ⟨r', hr, rfl⟩ := Option.map_eq_some_iff.mp hs
      cases ht : e.isTick with
      | true =>
        cases e <;> cases ht
        rw [(Run.eq_of_tick hr).1]
        exact Run.perm_of_quiet hc
      | false => exact (Run.step_of_step? hr ht).counted hjoined hc
    | refused | stopped => cases hs

/-- **What an upload has counted** at any time: what its strands have counted, the rows that were
started, and what those count as that were taken note of. -/
theorem counted_of_steps {shared : Shared} {now : Nat} {journal : List (Entry Who)}
    {es : List Event} (h : (new t shared now journal).steps? es = some d) :
    d.shared.counted.Perm (tally d.started ++
      (shared.counted ++ metricsOf ((new t shared now journal).history es).acts)) := by
  -- The induction is on the events to come; the account of those before goes along in `H`.
  suffices hall : ∀ es H d₀, d₀.steps? es = some d → Account t H d₀ →
      d₀.shared.counted.Perm (tally d₀.started ++ (shared.counted ++ metricsOf H.acts)) →
      d.shared.counted.Perm
        (tally d.started ++ (shared.counted ++ metricsOf (H ++ d₀.history es).acts)) by
    have hnew : Account t (.solo .main []) (new t shared now journal) := .preparing nofun (.rest t)
    refine hall es _ _ h hnew ?_
    simp [tally, started, new, Dispatch.shared, metricsOf]
  intro es
  induction es with
  | nil =>
    intro H d₀ h _ hc
    cases h
    simpa [history] using hc
  | cons e es ih =>
    intro H d₀ h hacc hc
    obtain ⟨d₁, he, h⟩ := Option.bind_eq_some_iff.mp h
    have hc₁ := hacc.counted he hc
    rw [List.append_assoc, ← metricsOf_append, ← History.acts_append] at hc₁
    simpa [history, he] using ih _ d₁ h (hacc.step he) hc₁

variable {i : Identity} {p : Product} {pace : Pace} {csv : Text.Bytes} {shared : Shared}

theorem Account.counted_of_refused {q : Preparation} {r : Refusal}
    (h : Account (Plan.prepare i p pace csv) H (.refused q r)) : metricsOf H.acts = [] := by
  cases h with
  | refused hc =>
    rw [History.acts_solo]
    rcases Plan.metricsOf_prepare hc with ⟨_, _, hnone⟩ | ⟨_, heq, _⟩
    · exact hnone
    · cases heq

theorem Account.balance {r : Run} {gone : Bool} {a : Except Refusal Summary}
    (h : Account (Plan.prepare i p pace csv) H (.running r gone))
    (hcalm : ∀ a ∈ H.acts, a.isCrash = false) (ha : r.answer? = some a) :
    ∃ rows, Plan.dataRows p csv = .ok rows ∧
      (pace.capFits = true → Balance p rows H r.rows a (tally r.rows ++ metricsOf H.acts)) ∧
      (pace.capFits = false → tally r.rows ++ metricsOf H.acts = [.jobCreated p]) := by
  cases h with
  | @running P es _ _ r₀ hc hfresh hes =>
    obtain ⟨A, R, B, hacc, hH⟩ := Run.account_of_steps hfresh hes
    rw [hH] at hcalm ⊢
    have hcounted : metricsOf (History.solo Who.main P ++ (.solo .main A ++ R ++
        .solo .main B)).acts = .jobCreated p :: metricsOf B := by
      rcases Plan.metricsOf_prepare hc with ⟨_, heq, _⟩ | ⟨_, _, hjob⟩
      · cases heq
      · rw [History.acts_append, metricsOf_append, History.acts_solo, hjob, hacc.metricsOf_eq]
        rfl
    rw [hcounted]
    have hP : About (·.isAsk = false) P := by
      refine hc.about ((Plan.prepare_asks i p pace csv).mono fun c hrun => ?_)
      cases c <;> first | rfl | cases hrun
    rcases Plan.prepare_ended hc with ⟨_, heq, _⟩ | ⟨job, plan, heq, hprep⟩
    · cases heq
    cases heq
    obtain ⟨rows, hrows, hpace, hplan⟩ : ∃ rows, Plan.dataRows p csv = .ok rows ∧
        r₀.plan.pace = pace ∧ r₀.plan.submissions = rows.map (Submission.ofRow p) := by
      generalize r₀.plan = plan at hprep
      cases hprep with
      | mk hrows _ => exact ⟨_, hrows, rfl, rfl⟩
    refine ⟨rows, hrows, fun hfits => ?_, fun hfits => ?_⟩
    · cases hph : r.phase with
      | «over» o =>
        exact balance_of_over hacc (Run.allNoted_of_steps hfresh hes)
          (fun a ha => hcalm a (by simp [ha])) hP hplan hph ha
      | crashed =>
        -- The run itself crashes with a call of the main strand only, if its permits fit.
        obtain ⟨a, ha, hcrash⟩ := hacc.exists_crash hph (hpace ▸ hfits)
        have hmem : a ∈ A ∨ a ∈ B := List.mem_append.mp ha
        rw [hcalm a (by rcases hmem with hmem | hmem <;> simp [hmem])] at hcrash
        cases hcrash
      | starting | admitting | pausing | acquiring | joining | finalizing =>
        simp [Run.answer?, hph] at ha
    · obtain ⟨_, rfl, _⟩ := hacc.of_not_fits (hpace ▸ hfits)
      rw [hacc.rows_of_not_fits (hpace ▸ hfits)]
      rfl

/-- **The counters conserve the rows of an upload** of which no call crashes. If the upload is
refused they are as they were. Once its run has an answer they have grown by what is in balance with
what was done; but if more permits are asked for than can be given out, the job is counted and no
row is ever sent. An upload whose client stays can be brought to its answer, whatever the services
reply. -/
theorem counters_conserve_rows {now : Nat} {journal : List (Entry Who)} {es : List Event}
    (h : (new (Plan.prepare i p pace csv) shared now journal).steps? es = some d)
    (hcalm : ∀ a ∈ ((new (Plan.prepare i p pace csv) shared now journal).history es).acts,
      a.isCrash = false) :
    let H := (new (Plan.prepare i p pace csv) shared now journal).history es
    (∀ q r, d = .refused q r → d.shared.counted.Perm shared.counted) ∧
    (∀ r gone a, d = .running r gone → r.answer? = some a →
      ∃ rows counted, Plan.dataRows p csv = .ok rows ∧
        d.shared.counted.Perm (shared.counted ++ counted) ∧
        (pace.capFits = true → Balance p rows H r.rows a counted) ∧
        (pace.capFits = false → counted = [.jobCreated p])) ∧
    (d.Present → pace.cap ≠ some 0 → ∀ clock f,
      ∃ d', Leads clock f d d' ∧ d'.answer?.isSome = true) := by
  intro H
  have hacc : Account _ H d := account_of_steps h
  have hcounted : d.shared.counted.Perm (tally d.started ++ (shared.counted ++ metricsOf H.acts)) :=
    counted_of_steps h
  refine ⟨?_, ?_, ?_⟩
  · rintro q r rfl
    rw [hacc.counted_of_refused] at hcounted
    simpa [started, tally] using hcounted
  · rintro r gone a rfl ha
    obtain ⟨rows, hrows, hbalance, halone⟩ := hacc.balance hcalm ha
    refine ⟨rows, _, hrows, hcounted.trans ?_, hbalance, halone⟩
    exact List.perm_append_comm_assoc ..
  · intro hpresent hcap clock f
    refine answers_of_steps h hpresent ?_ clock f
    intro A plan hA
    rcases Plan.prepare_ended hA with ⟨_, heq, _⟩ | ⟨job', plan', heq, hprep⟩
    · cases heq
    · cases heq
      obtain ⟨_, _, _, _, hpace⟩ := hprep.plan_eq
      rwa [hpace]

/-- The only row of `oneRow` is failed by its product, and so it is counted. -/
theorem one_row_counted : ∃ r counted,
    oneRow.steps? (oneRowCourse.map .run) = some (.running r false) ∧
    r.answer? = some (.ok ⟨1, 1, 0, .failed⟩) ∧ r.shared.counted.Perm counted ∧
    Balance .phoneLiveStatus [["081234567890"]] (oneRow.history (oneRowCourse.map .run)) r.rows
      (.ok ⟨1, 1, 0, .failed⟩) counted ∧
    counted.count (.rowFailed .service) = 1 := by
  have hcalm : ∀ a ∈ (oneRow.history (oneRowCourse.map .run)).acts, a.isCrash = false := by
    decide +kernel
  have hgoes : ∃ r, oneRow.steps? (oneRowCourse.map .run) = some (.running r false) ∧
      r.answer? = some (.ok ⟨1, 1, 0, .failed⟩) := ⟨_, rfl, rfl⟩
  obtain ⟨r, hr, ha⟩ := hgoes
  obtain ⟨rows, counted, hrows, hcounted, hbalance, _⟩ :=
    (counters_conserve_rows hr hcalm).2.1 r false _ rfl ha
  cases hrows.symm.trans dataRows_oneRow
  have hfailed := (hbalance rfl).failed
  exact ⟨r, counted, hr, ha, hcounted, hbalance rfl, hfailed⟩

/-- If `overdrawnRow` asks for one permit more than can be given out, its job is created and its
client is told that the run is over, but its row has never been counted as sent. -/
theorem not_sent_beyond_maxCap : ∃ d,
    overdrawnRow.steps? (overdrawnCourse.map .run) = some d ∧
    Plan.dataRows .phoneLiveStatus (Text.utf8 "Phone Number\n081234567890\n") =
      .ok [["081234567890"]] ∧
    (∀ a ∈ (overdrawnRow.history (overdrawnCourse.map .run)).acts, a.isCrash = false) ∧
    d.answer? = some (.error ⟨.internal, "bulk run did not complete"⟩) ∧
    d.shared.counted.count (.jobCreated .phoneLiveStatus) = 1 ∧
    d.shared.counted.count .rowSent = 0 :=
  ⟨_, rfl, dataRows_oneRow, by decide +kernel, rfl, rfl, rfl⟩

end Dispatch

end Bulk

end Vetting
