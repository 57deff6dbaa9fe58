import Vetting.Proofs.RowsLogged

/-! # The status history of a job

A run writes its job as in progress before anything else, as failed at most once and only after a
product call failed, and once more with its success count at its end. The count it writes is read
when all rows are over. `Run.Legal` says so of the history of a run at any time, and
`Run.Concluded` of a run at its end. Rows may crash in any of their calls. -/

namespace Vetting

namespace Call

def isCountRead : Call → Bool
  | .processedCount _ => true
  | _ => false

end Call

namespace Act

def isCalled : Act → Bool
  | .called _ => true
  | _ => false

def isReturned : Act → Bool
  | .answered .. => true
  | .crashed _ => true
  | _ => false

end Act

/-- A strand that is over waits for none of its calls. -/
theorem Course.returned {α : Type} {t : Task α} {A : List Act} {s : Strand α} (h : Course t A s)
    (hover : s.isOver = true) : A.countP Act.isCalled = A.countP Act.isReturned := by
  induction h with
  | rest => cases hover
  | ended => rfl
  | waiting => cases hover
  | crashed => rfl
  | call o _ ih => simp [List.countP_cons, Act.isCalled, Act.isReturned, ih hover]
  | fresh n _ ih => simpa [List.countP_cons, Act.isCalled, Act.isReturned] using ih hover
  | clock i _ ih => simpa [List.countP_cons, Act.isCalled, Act.isReturned] using ih hover
  | trip b _ ih => simpa [List.countP_cons, Act.isCalled, Act.isReturned] using ih hover
  | latched b _ ih => simpa [List.countP_cons, Act.isCalled, Act.isReturned] using ih hover
  | count _ ih => simpa [List.countP_cons, Act.isCalled, Act.isReturned] using ih hover

namespace Bulk

def History.statusWrites (H : History) : List Call := (callsOf H.acts).filter Call.isStatusWrite

namespace Run

open Tracking (opening closing)
open Row (noteFailure)

/-- What may have been done for the job of `plan` at any time. -/
structure Legal (plan : Plan) (H : History) : Prop where
  /-- The opening comes before every other call. -/
  opened : H.calls = [] ∨ ∃ rest, H.calls = (.main, opening plan.brief.job) :: rest
  /-- The opening, one failure at most, and one closing at most. -/
  writes : ∃ F T, (H.statusWrites = [] ∨ H.statusWrites = opening plan.brief.job :: (F ++ T)) ∧
    (F = [] ∨ F = [noteFailure plan.brief] ∧ H.acts.any Act.isAskError = true) ∧
    (T = [] ∨ ∃ n latch time, T = [closing plan.brief.job plan.brief.total n latch time])
  /-- When the count is read, every row is over and none of its calls is under way, and no row
  acts afterwards. -/
  barrier : ∀ H₁ H₂ : History, H = H₁ ++ (.main, .called (.processedCount plan.brief.job)) :: H₂ →
    (∀ i s, plan.submissions[i]? = some s → ∃ st,
      Course (Row.handle plan.brief s) (H₁.of (.row i)) st ∧ st.isOver = true ∧
        (H₁.of (.row i)).countP Act.isCalled = (H₁.of (.row i)).countP Act.isReturned) ∧
    ∀ x ∈ H₂, x.1 = .main
  /-- The closing comes after the count was read, and is the last call. -/
  last : ∀ (H₁ H₂ : History) w job u, H = H₁ ++ (w, .called (.updateJob job u)) :: H₂ →
    u.endAt.isSome = true →
    (∃ n, (.main, .answered (.processedCount plan.brief.job) (.ok n)) ∈ H₁ ∧
      u.successCount = some (min n plan.brief.total)) ∧ H₂.calls = []
  /-- No other job is written to, and no other status. -/
  statuses : ∀ job u, .updateJob job u ∈ callsOf H.acts → job = plan.brief.job ∧
    (u.status = .inProgress ∨ u.status = .failed ∨ u.status = .done)

/-- What has been done for the job of `plan` by a run that is over. -/
structure Concluded (plan : Plan) (H : History) : Prop where
  countedOnce : (callsOf H.acts).countP Call.isCountRead = 1
  /-- The opening; one failure just if some product call failed; and the closing just if the count
  could be read. -/
  writes : ∃ T, H.statusWrites = opening plan.brief.job ::
      ((if H.acts.any Act.isAskError then [noteFailure plan.brief] else []) ++ T) ∧
    ((∃ e, (.main, .answered (.processedCount plan.brief.job) (.error e)) ∈ H ∧ T = []) ∨
      ∃ n time, (.main, .answered (.processedCount plan.brief.job) (.ok n)) ∈ H ∧
        T = [closing plan.brief.job plan.brief.total n (H.acts.any Act.isAskError) time])

variable {plan : Plan} {A B : List Act} {R : History} {r : Run}

/-! ## At any time -/

namespace Account

theorem opened_first (h : Account plan A R B r) :
    (A = [] ∧ R = [] ∧ B = []) ∨ callsOf A = [opening plan.brief.job] := by
  have ended {o : Except ServiceError Unit}
      (hc : Course (Tracking.start plan.brief.job) A (.ended o)) :
      callsOf A = [opening plan.brief.job] := by
    rcases Tracking.callsOf_start hc with ⟨_, hover⟩ | hcalls
    · cases hover
    · exact hcalls
  cases h.stage with
  | opening _ hnil hc hB =>
    rcases Tracking.callsOf_start hc with ⟨hA, _⟩ | hcalls
    · exact .inl ⟨hA, h.rows_nil hnil, hB⟩
    · exact .inr hcalls
  | overdrawn _ _ hc => exact .inr (ended hc)
  | fanning _ _ hc => exact .inr (ended hc)
  | closing _ _ _ hc => exact .inr (ended hc)

theorem statusWrites_rows_le (h : Account plan A R B r) (hagree : Agrees false R.acts) :
    R.statusWrites = [] ∨
      R.statusWrites = [noteFailure plan.brief] ∧ R.acts.any Act.isAskError = true := by
  have hfirst := countP_isFirstTrip hagree
  obtain ⟨htrip, hwrite⟩ := h.counts_le
  rw [History.statusWrites, h.statusWrites_rows]
  cases hany : R.acts.any Act.isTrip with
  | false =>
    rw [hany] at hfirst
    have hzero : R.acts.countP Act.isStatusWrite = 0 := Nat.le_zero.mp (hwrite.trans_eq hfirst)
    exact .inl (by rw [hzero]; rfl)
  | true =>
    rw [hany] at hfirst
    have hone : R.acts.countP Act.isStatusWrite ≤ 1 := hwrite.trans_eq hfirst
    have hpos : 0 < R.acts.countP Act.isTrip := by
      simpa only [List.countP_pos_iff, List.any_eq_true] using hany
    have herr : R.acts.any Act.isAskError = true := by
      simpa only [List.countP_pos_iff, List.any_eq_true] using Nat.lt_of_lt_of_le hpos htrip
    rcases Nat.le_one_iff_eq_zero_or_eq_one.mp hone with hzero | hone
    · exact .inl (by rw [hzero]; rfl)
    · exact .inr ⟨by rw [hone]; rfl, herr⟩

end Account

/-- Settled rows have written to the job once if some product call failed, and else never. -/
theorem Settled.statusWrites_rows (hset : Settled plan R) (h : Account plan A R B r)
    (hagree : Agrees false R.acts) : R.statusWrites =
      if R.acts.any Act.isAskError then [noteFailure plan.brief] else [] := by
  have hfirst := countP_isFirstTrip hagree
  rw [History.statusWrites, h.statusWrites_rows, hset.counts_eq.2, hfirst, hset.any_isTrip]
  cases R.acts.any Act.isAskError <;> rfl

theorem Account.any_isAskError (h : Account plan A R B r) :
    (History.solo Who.main A ++ R ++ .solo .main B).acts.any Act.isAskError =
      R.acts.any Act.isAskError := by
  have hA : A.any Act.isAskError = false := List.any_eq_false.mpr fun a ha => by
    simp [(h.opening_quiet a ha).2.1]
  have hB : B.any Act.isAskError = false := List.any_eq_false.mpr fun a ha => by
    simp [(h.closing_quiet a ha).2.1]
  simp [hA, hB]

theorem statusWrites_woven (A : List Act) (R : History) (B : List Act) :
    History.statusWrites (.solo .main A ++ R ++ .solo .main B) =
      (callsOf A).filter Call.isStatusWrite ++ R.statusWrites ++
        (callsOf B).filter Call.isStatusWrite := by
  simp [History.statusWrites]

/-- A call that closes the job was made when the rows were over. -/
theorem Account.split_closing (h : Account plan A R B r) {H₁ H₂ : History} {w : Who} {c : Call}
    (hH : History.solo .main A ++ R ++ .solo .main B = H₁ ++ (w, .called c) :: H₂)
    (hc : c.closesJob = true) :
    ∃ M, H₁ = .solo .main A ++ R ++ M ∧ History.solo .main B = M ++ (w, .called c) :: H₂ := by
  refine exists_of_append_eq hH ?_
  intro hmem
  rcases List.mem_append.mp hmem with hmem | hmem
  · rw [h.opening_unclosing _ (History.mem_solo.mp hmem).2 c rfl] at hc
    cases hc
  · rw [h.rows_unclosing _ (History.mem_acts hmem) c rfl] at hc
    cases hc

namespace Account

theorem calls_woven (h : Account plan A R B r) :
    (History.solo Who.main A ++ R ++ .solo .main B).calls = [] ∨ ∃ rest,
      (History.solo Who.main A ++ R ++ .solo .main B).calls =
        (.main, opening plan.brief.job) :: rest := by
  rcases h.opened_first with ⟨rfl, rfl, rfl⟩ | hcalls
  · exact .inl rfl
  · refine .inr ⟨R.calls ++ (History.solo .main B).calls, ?_⟩
    simp [History.calls_solo, hcalls]

theorem statusWrites_closing (h : Account plan A R B r) :
    (callsOf B).filter Call.isStatusWrite = [] ∨ ∃ n latch time,
      (callsOf B).filter Call.isStatusWrite =
        [closing plan.brief.job plan.brief.total n latch time] := by
  obtain ⟨s, hB⟩ := h.course_closing
  rcases Tracking.callsOf_attempt hB with hcalls | hcalls | ⟨n, latch, time, hcalls⟩
  · exact .inl (by rw [hcalls]; rfl)
  · exact .inl (by rw [hcalls]; rfl)
  · exact .inr ⟨n, latch, time, by rw [hcalls]; rfl⟩

/-- When the count is read every row is over, and from then on the main strand is alone. -/
theorem rows_over_of_split (h : Account plan A R B r) {H₁ H₂ : History} {w : Who} {c : Call}
    (hH : History.solo .main A ++ R ++ .solo .main B = H₁ ++ (w, .called c) :: H₂)
    (hc : c.closesJob = true) :
    (∀ i s, plan.submissions[i]? = some s → ∃ st,
      Course (Row.handle plan.brief s) (H₁.of (.row i)) st ∧ st.isOver = true ∧
        (H₁.of (.row i)).countP Act.isCalled = (H₁.of (.row i)).countP Act.isReturned) ∧
    ∀ x ∈ H₂, x.1 = .main := by
  obtain ⟨M, rfl, hM⟩ := h.split_closing hH hc
  have hmain : ∀ x ∈ M ++ (w, .called c) :: H₂, x.1 = .main := by
    intro x hx
    rw [← hM] at hx
    exact (History.mem_solo.mp hx).1
  have hne : B ≠ [] := by
    rintro rfl
    simp [History.solo] at hM
  refine ⟨?_, fun x hx => hmain x (by simp [hx])⟩
  intro i s hs
  have hof : (History.solo Who.main A ++ R ++ M).of (.row i) = R.of (.row i) := by
    have hnil : History.of M (.row i) = [] := History.of_eq_nil fun x hx => by
      simp [hmain x (by simp [hx])]
    simp [hnil]
  obtain ⟨st, hc, hover⟩ := (h.settled (.inl hne)).course hs
  rw [hof]
  exact ⟨st, hc, hover, hc.returned hover⟩

/-- The write that closes the job comes after the count was read, and no call comes after it. -/
theorem closing_last (h : Account plan A R B r) {H₁ H₂ : History} {w : Who} {job : UInt64}
    {u : JobUpdate}
    (hH : History.solo .main A ++ R ++ .solo .main B = H₁ ++ (w, .called (.updateJob job u)) :: H₂)
    (hend : u.endAt.isSome = true) :
    (∃ n, (.main, .answered (.processedCount plan.brief.job) (.ok n)) ∈ H₁ ∧
      u.successCount = some (min n plan.brief.total)) ∧ H₂.calls = [] := by
  obtain ⟨s, hB⟩ := h.course_closing
  obtain ⟨M, rfl, hM⟩ := h.split_closing hH hend
  have hacts : B = M.acts ++ .called (.updateJob job u) :: H₂.acts := by
    simpa [History.acts, History.solo] using congrArg History.acts hM
  have hvis : visible B = visible M.acts ++ .called (.updateJob job u) :: visible H₂.acts := by
    rw [hacts]
    simp [visible, Act.isSilent]
  obtain ⟨⟨n, hn, hsuccess⟩, hlast⟩ := (Tracking.closing_of_course hB).split hvis
  rw [callsOf_visible, ← History.calls_map_snd, List.map_eq_nil_iff] at hlast
  obtain ⟨⟨v, a⟩, hx, rfl⟩ := List.mem_map.mp ((mem_visible rfl).mp hn)
  have hv : (v, Act.answered (.processedCount plan.brief.job) (.ok n)) ∈ History.solo .main B := by
    rw [hM]
    exact List.mem_append_left _ hx
  obtain rfl : v = .main := (History.mem_solo.mp hv).1
  exact ⟨⟨n, List.mem_append_right _ hx, hsuccess⟩, hlast⟩

theorem status_of_write (h : Account plan A R B r) {job : UInt64} {u : JobUpdate}
    (hu : .updateJob job u ∈ callsOf (History.solo Who.main A ++ R ++ .solo .main B).acts) :
    job = plan.brief.job ∧
      (u.status = .inProgress ∨ u.status = .failed ∨ u.status = .done) := by
  simp only [History.acts_append, History.acts_solo, callsOf_append, List.mem_append] at hu
  rcases hu with (hu | hu) | hu
  · obtain ⟨s, hA⟩ := h.course_opening
    rcases Tracking.callsOf_start hA with ⟨rfl, _⟩ | hcalls
    · cases hu
    · rw [hcalls] at hu
      cases List.mem_singleton.mp hu
      exact ⟨rfl, .inl rfl⟩
  · cases h.eq_noteFailure hu rfl
    exact ⟨rfl, .inr (.inl rfl)⟩
  · have hmem : .updateJob job u ∈ (callsOf B).filter Call.isStatusWrite :=
      List.mem_filter.mpr ⟨hu, rfl⟩
    rcases h.statusWrites_closing with hnil | ⟨n, latch, time, hone⟩
    · rw [hnil] at hmem
      cases hmem
    · rw [hone] at hmem
      cases List.mem_singleton.mp hmem
      cases latch
      · exact ⟨rfl, .inr (.inr rfl)⟩
      · exact ⟨rfl, .inr (.inl rfl)⟩

theorem legal (h : Account plan A R B r)
    (hagree : Agrees false (History.solo Who.main A ++ R ++ .solo .main B).acts) :
    Legal plan (.solo .main A ++ R ++ .solo .main B) where
  opened := h.calls_woven
  writes := by
    refine ⟨R.statusWrites, (callsOf B).filter Call.isStatusWrite, ?_, ?_, h.statusWrites_closing⟩
    · rw [statusWrites_woven]
      rcases h.opened_first with ⟨rfl, rfl, rfl⟩ | hcalls
      · exact .inl rfl
      · exact .inr (by rw [hcalls]; rfl)
    · rw [h.any_isAskError]
      exact h.statusWrites_rows_le (h.rows_agree hagree).1
  barrier := fun _ _ hH => h.rows_over_of_split hH rfl
  last := fun _ _ _ _ _ hH hend => h.closing_last hH hend
  statuses := fun _ _ hu => h.status_of_write hu

end Account

/-! ## At the end -/

/-- How the closing of a run that is over went, and that the rows are settled by then. -/
theorem Account.closed (h : Account plan A R B r) {o : Except ServiceError Tracking.Final}
    (hph : r.phase = .over o) : callsOf A = [opening plan.brief.job] ∧ Settled plan R ∧
      Tracking.Closed plan.brief.job plan.brief.total (visible B) o := by
  have hset := h.settled (.inr (.inr ⟨o, hph⟩))
  cases h.stage with
  | opening hopen => rw [hph] at hopen; cases hopen
  | overdrawn hcr => rw [hph] at hcr; cases hcr
  | fanning hrest => rw [hph] at hrest; cases hrest
  | closing hcl _ _ hA _ hB =>
    rw [hph] at hcl
    cases hcl
    refine ⟨?_, hset, (Tracking.closing_of_course hB).of_ended⟩
    rcases Tracking.callsOf_start hA with ⟨_, hover⟩ | hcalls
    · cases hover
    · exact hcalls

/-- What a run ends with that could close its job: the job as it was written, with the count that
was read and the status by the rows' product calls. -/
theorem Account.final_eq (h : Account plan A R B r)
    (hagree : Agrees false (History.solo Who.main A ++ R ++ .solo .main B).acts)
    {final : Tracking.Final} (hph : r.phase = .over (.ok final)) :
    ∃ n time, .answered (.processedCount plan.brief.job) (.ok n) ∈ B ∧
      (∀ n', .answered (.processedCount plan.brief.job) (.ok n') ∈ B → n' = n) ∧
      final = ⟨plan.brief.job, plan.brief.total,
        Tracking.finalStatus (R.acts.any Act.isAskError), min n plan.brief.total, time⟩ := by
  obtain ⟨_, hset, hclosed⟩ := h.closed hph
  have hB := (h.rows_agree hagree).2
  rw [hset.any_isTrip, ← agrees_visible] at hB
  have hmem {a : Act} (hs : a.isSilent = false) : a ∈ visible B ↔ a ∈ B := mem_visible hs
  generalize visible B = V at hclosed hB hmem
  cases hclosed with
  | written n latch time =>
    rw [← hB.1]
    refine ⟨n, time, (hmem rfl).mp (by simp), ?_, rfl⟩
    intro n' hn'
    have hread := (hmem rfl).mpr hn'
    simp only [List.mem_cons, Act.answered.injEq, reduceCtorEq, false_or, or_false, true_and,
      heq_eq_eq, List.not_mem_nil, false_and] at hread
    cases hread
    rfl

theorem Account.countP_isCountRead (h : Account plan A R B r) :
    (callsOf R.acts).countP Call.isCountRead = 0 := by
  apply List.countP_eq_zero.mpr
  intro c hc
  rcases h.row_calls hc with ⟨s, rfl⟩ | rfl | hlog
  · nofun
  · nofun
  · cases c <;> simp_all [Call.isLog, Call.isCountRead]

theorem Account.concluded (h : Account plan A R B r)
    (hagree : Agrees false (History.solo Who.main A ++ R ++ .solo .main B).acts)
    {o : Except ServiceError Tracking.Final} (hph : r.phase = .over o) :
    Concluded plan (.solo .main A ++ R ++ .solo .main B) := by
  obtain ⟨hA, hset, hclosed⟩ := h.closed hph
  obtain ⟨hR, hB⟩ := h.rows_agree hagree
  rw [hset.any_isTrip, ← agrees_visible] at hB
  have hmem {a : Act} (ha : a ∈ visible B) (hs : a.isSilent = false) :
      (.main, a) ∈ History.solo .main A ++ R ++ .solo .main B :=
    List.mem_append_right _ (History.mem_solo.mpr ⟨rfl, (mem_visible hs).mp ha⟩)
  have hcallsB : callsOf B = callsOf (visible B) := (callsOf_visible B).symm
  constructor
  · simp only [History.acts_append, History.acts_solo, callsOf_append, List.countP_append,
      h.countP_isCountRead, hA, hcallsB]
    generalize visible B = V at hclosed
    cases hclosed <;> rfl
  · refine ⟨(callsOf B).filter Call.isStatusWrite, ?_, ?_⟩
    · rw [statusWrites_woven, hA, h.any_isAskError, hset.statusWrites_rows h hR]
      rfl
    · rw [h.any_isAskError, hcallsB]
      generalize visible B = V at hclosed hB hmem
      cases hclosed with
      | unreadable e => exact .inl ⟨e, hmem (by simp) rfl, rfl⟩
      | unwritten n latch time e =>
        rw [← hB.1]
        exact .inr ⟨n, time, hmem (by simp) rfl, rfl⟩
      | written n latch time =>
        rw [← hB.1]
        exact .inr ⟨n, time, hmem (by simp) rfl, rfl⟩

/-- **The statuses of a job are written in their order**, in a run whose main strand does not
crash; rows may. At any time the writes are the opening, one failure at most, and one closing at
most, and the count is read behind all rows. If the permits asked for can be given out, a run can
be brought to its end from wherever it stands, and at its end has read the count once, has written
the failure just if a product call failed, and the closing just if the count could be read. If they
cannot be given out, all that any run ever does is to open the job. -/
theorem statuses_in_order {plan : Plan} {issued : UInt64} {now : Nat} {es : List Event} {r : Run}
    (h : (new plan issued now).steps? es = some r)
    (hmain : ∀ a ∈ ((new plan issued now).history es).of .main, a.isCrash = false) :
    r.told.reverse = ((new plan issued now).history es).calls ∧
    Legal plan ((new plan issued now).history es) ∧
    (plan.pace.capFits = true →
      (plan.pace.cap ≠ some 0 → ∀ clock f, ∃ fs r' o, r.steps? fs = some r' ∧
        (∀ e ∈ fs, e.Calm clock f) ∧ r'.phase = .over o) ∧
      (r.answer? ≠ none → Concluded plan ((new plan issued now).history es))) ∧
    (plan.pace.capFits = false → (∀ o, r.phase ≠ .over o) ∧
      (r.told = [] ∨ r.told = [(.main, opening plan.brief.job)])) := by
  have hfresh := fresh_new plan issued now
  have htold : r.told = ((new plan issued now).history es).calls.reverse := by
    simpa [told, new] using told_of_steps h
  have hagree := (latch_of_steps hfresh h).1
  have hends := completes hfresh h hmain
  have hne := phase_ne_crashed hfresh h hmain
  obtain ⟨A, R, B, hacc, hH⟩ := account_of_steps hfresh h
  rw [hH] at hagree htold ⊢
  refine ⟨by rw [htold, List.reverse_reverse], hacc.legal hagree, ?_, ?_⟩
  · intro hfits
    refine ⟨fun hcap => hends hcap hfits, ?_⟩
    intro hans
    cases hph : r.phase with
    | «over» o => exact hacc.concluded hagree hph
    | crashed => exact absurd hph (hne hfits)
    | _ => exact absurd (by simp [answer?, hph]) hans
  · intro hfits
    obtain ⟨rfl, rfl, hover⟩ := hacc.of_not_fits hfits
    refine ⟨hover, ?_⟩
    obtain ⟨s, hA⟩ := hacc.course_opening
    rcases Tracking.callsOf_start hA with ⟨rfl, _⟩ | hcalls
    · exact .inl htold
    · refine .inr (htold.trans ?_)
      simp only [History.calls_append, History.calls_solo, hcalls]
      rfl

/-- The job of `Plan.twoRows` is opened and closed, and its count is read once. -/
theorem two_rows_statuses_in_order : ∃ r,
    (new (.twoRows (some 2)) 0 0).steps? twoRowsCourse = some r ∧
      r.phase = .over (.ok ⟨1, 2, .done, 1, default⟩) ∧
      Legal (.twoRows (some 2)) ((new (.twoRows (some 2)) 0 0).history twoRowsCourse) ∧
      Concluded (.twoRows (some 2)) ((new (.twoRows (some 2)) 0 0).history twoRowsCourse) := by
  have hmain : ∀ a ∈ ((new (.twoRows (some 2)) 0 0).history twoRowsCourse).of .main,
      a.isCrash = false := by decide +kernel
  refine ⟨_, rfl, rfl, ?_⟩
  obtain ⟨_, hlegal, hfits, _⟩ := statuses_in_order rfl hmain
  exact ⟨hlegal, (hfits rfl).2 nofun⟩

/-- With one permit more than can be given out, the count is never read, though the client is told
that the run is over. -/
theorem not_counted_beyond_maxCap : ∃ es r,
    (new (.twoRows (some (Pace.maxCap + 1))) 0 0).steps? es = some r ∧
      (∀ a ∈ ((new (.twoRows (some (Pace.maxCap + 1))) 0 0).history es).of .main,
        a.isCrash = false) ∧
      r.answer? = some (.error ⟨.internal, "bulk run did not complete"⟩) ∧
      r.told.countP (·.2.isCountRead) = 0 :=
  ⟨moves .main 1 ++ [.reply .main accepting] ++ moves .main 2, _, rfl, by decide +kernel, rfl, rfl⟩

end Run

end Bulk

end Vetting
