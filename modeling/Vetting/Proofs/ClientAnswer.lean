import Vetting.Proofs.DispatchAccount
import Vetting.Proofs.StatusHistory

/-! # What the client of an upload is told

Once its job has been created, an upload is answered by two calls alone: the reading of the count
and the write that closes the job. If one of them fails, the client is told so; else it is told of
the job as it was written. Whatever befalls the rows shows only in whether some product call
failed. `answerOf` is the answer as a function of the two replies. -/

namespace Vetting

namespace Act

def countReply? : Act → Option (Except ServiceError UInt64)
  | .answered (.processedCount _) o => some o
  | _ => none

def closingReply? : Act → Option (Except ServiceError Unit)
  | .answered (.updateJob _ u) o => if u.endAt.isSome then some o else none
  | _ => none

end Act

theorem Unclosing.replies {A : List Act} (h : Unclosing A) :
    A.findSome? Act.countReply? = none ∧ A.findSome? Act.closingReply? = none := by
  simp only [List.findSome?_eq_none_iff]
  constructor
  · intro a ha
    have hc := h a ha
    cases a with
    | answered c o => cases c <;> simp_all [Act.countReply?, Act.about?, Call.closesJob]
    | _ => rfl
  · intro a ha
    have hc := h a ha
    cases a with
    | answered c o => cases c <;> simp_all [Act.closingReply?, Act.about?, Call.closesJob]
    | _ => rfl

/-- Looking for a kind of acts that others see may leave the silent acts out. -/
theorem findSome?_visible {β : Type} {f : Act → Option β} (hdrew : ∀ n, f (.drew n) = none)
    (hread : ∀ i, f (.read i) = none) (A : List Act) : (visible A).findSome? f = A.findSome? f := by
  induction A with
  | nil => rfl
  | cons a A ih =>
    cases a <;> simp [Act.isSilent, List.findSome?_cons, hdrew, hread, ih]

namespace Bulk

namespace History

def countReply? (H : History) : Option (Except ServiceError UInt64) :=
  H.acts.findSome? Act.countReply?

def closingReply? (H : History) : Option (Except ServiceError Unit) :=
  H.acts.findSome? Act.closingReply?

/-- Some product call failed. -/
def anyFailure (H : History) : Bool := H.acts.any Act.isAskError

end History

/-- The job was closed as `s` tells, by one write and no other. -/
structure History.ClosesAs (H : History) (s : Summary) : Prop where
  written : ∃ time, (.main, .answered (.updateJob s.job ⟨some s.successCount, s.status, some time⟩)
    (.ok ())) ∈ H
  only : ∀ w job u, (w, .called (.updateJob job u)) ∈ H → u.endAt.isSome = true →
    job = s.job ∧ u.successCount = some s.successCount ∧ u.status = s.status

/-- Acts of the main strand before the job that close none change nothing of this. -/
theorem History.ClosesAs.prepend {A : List Act} {K : History} {s : Summary} (h : K.ClosesAs s)
    (hA : Unclosing A) : History.ClosesAs (.solo .main A ++ K) s := by
  obtain ⟨⟨time, hwritten⟩, honly⟩ := h
  refine ⟨⟨time, List.mem_append_right _ hwritten⟩, ?_⟩
  intro w job u hmem hend
  rcases List.mem_append.mp hmem with hmem | hmem
  · have hopen : u.endAt.isSome = false := hA _ (History.mem_solo.mp hmem).2 _ rfl
    rw [hend] at hopen
    cases hopen
  · exact honly w job u hmem hend

theorem History.replies_append {A : List Act} (hA : Unclosing A)
    (hask : A.any Act.isAskError = false) (K : History) :
    countReply? (.solo .main A ++ K) = K.countReply? ∧
      closingReply? (.solo .main A ++ K) = K.closingReply? ∧
      anyFailure (.solo .main A ++ K) = K.anyFailure := by
  obtain ⟨hcount, hclosing⟩ := hA.replies
  simp [countReply?, closingReply?, anyFailure, hcount, hclosing, hask]

/-- The answer for a job of `total` rows, by whether some product call failed and by the replies to
the two calls that close the job. -/
def answerOf (job total : UInt64) (failed : Bool) :
    Option (Except ServiceError UInt64) → Option (Except ServiceError Unit) →
      Except Refusal Summary
  | some (.error e), _ => .error (.ofService e)
  | some (.ok _), some (.error e) => .error (.ofService e)
  | some (.ok n), some (.ok ()) =>
    .ok ⟨job, total, min n total, Tracking.finalStatus failed⟩
  | _, _ => .error ⟨.internal, "bulk run did not complete"⟩

/-- The client is told of a job just if both calls succeeded. -/
theorem answerOf_ok_iff {job total : UInt64} {failed : Bool}
    {count : Option (Except ServiceError UInt64)} {closing : Option (Except ServiceError Unit)} :
    (∃ s, answerOf job total failed count closing = .ok s) ↔
      (∃ n, count = some (.ok n)) ∧ closing = some (.ok ()) := by
  match count, closing with
  | some (.error e), _ => simp [answerOf]
  | some (.ok n), some (.error e) => simp [answerOf]
  | some (.ok n), some (.ok ()) => simp [answerOf]
  | some (.ok n), none => simp [answerOf]
  | none, _ => simp [answerOf]

theorem map_answerOf (job job' total : UInt64) (failed : Bool)
    (count : Option (Except ServiceError UInt64)) (closing : Option (Except ServiceError Unit)) :
    (answerOf job' total failed count closing).map ({ · with job := job }) =
      answerOf job total failed count closing := by
  match count, closing with
  | some (.error e), _ => rfl
  | some (.ok n), some (.error e) => rfl
  | some (.ok n), some (.ok ()) => rfl
  | some (.ok n), none => rfl
  | none, _ => rfl

namespace Run

variable {plan : Plan} {A B : List Act} {R : History} {r : Run}

namespace Account

theorem replies_eq (h : Account plan A R B r) :
    History.countReply? (.solo .main A ++ R ++ .solo .main B) =
        (visible B).findSome? Act.countReply? ∧
      History.closingReply? (.solo .main A ++ R ++ .solo .main B) =
        (visible B).findSome? Act.closingReply? := by
  obtain ⟨hA, hA'⟩ := h.opening_unclosing.replies
  obtain ⟨hR, hR'⟩ := h.rows_unclosing.replies
  rw [findSome?_visible (fun _ => rfl) (fun _ => rfl),
    findSome?_visible (fun _ => rfl) (fun _ => rfl)]
  simp [History.countReply?, History.closingReply?, hA, hA', hR, hR']

theorem answer_of_over (h : Account plan A R B r)
    (hagree : Agrees false (History.solo Who.main A ++ R ++ .solo .main B).acts)
    {o : Except ServiceError Tracking.Final} (hph : r.phase = .over o)
    {a : Except Refusal Summary} (ha : r.answer? = some a) :
    a = answerOf plan.brief.job plan.brief.total (R.acts.any Act.isAskError)
        ((visible B).findSome? Act.countReply?) ((visible B).findSome? Act.closingReply?) ∧
      ((visible B).findSome? Act.countReply?).isSome = true ∧
      ∀ s, a = .ok s →
        (∃ time, .answered (.updateJob s.job ⟨some s.successCount, s.status, some time⟩)
          (.ok ()) ∈ visible B) ∧
        ∀ job u, .called (.updateJob job u) ∈ visible B →
          job = s.job ∧ u.successCount = some s.successCount ∧ u.status = s.status := by
  obtain ⟨_, hset, hclosed⟩ := h.closed hph
  have hB := (h.rows_agree hagree).2
  rw [hset.any_isTrip, ← agrees_visible] at hB
  generalize visible B = V at hclosed hB
  cases hclosed with
  | unreadable e =>
    simp only [answer?, hph, Option.some.injEq] at ha
    subst ha
    exact ⟨rfl, rfl, fun _ hs => absurd hs (by simp)⟩
  | unwritten n latch time e =>
    simp only [answer?, hph, Option.some.injEq] at ha
    subst ha
    exact ⟨rfl, rfl, fun _ hs => absurd hs (by simp)⟩
  | written n latch time =>
    simp only [answer?, hph, Option.some.injEq] at ha
    subst ha
    obtain ⟨rfl, _⟩ := hB
    refine ⟨rfl, rfl, ?_⟩
    rintro s hs
    cases hs
    refine ⟨⟨time, by simp [Summary.ofFinal]⟩, ?_⟩
    intro job u hu
    simp only [List.mem_cons, reduceCtorEq, Act.called.injEq, Call.updateJob.injEq, false_or,
      or_false, List.not_mem_nil] at hu
    obtain ⟨rfl, rfl⟩ := hu
    exact ⟨rfl, rfl, rfl⟩

end Account

/-- **What the client of a run is told** is determined by the replies to the two calls that close
the job and by whether some product call failed. -/
theorem answer_of_steps {r₀ : Run} {es : List Event} {a : Except Refusal Summary}
    (hfresh : r₀.Fresh) (h : r₀.steps? es = some r)
    (hmain : ∀ a ∈ (r₀.history es).of .main, a.isCrash = false) (ha : r.answer? = some a) :
    a = answerOf r₀.plan.brief.job r₀.plan.brief.total (r₀.history es).anyFailure
        (r₀.history es).countReply? (r₀.history es).closingReply? ∧
      (∀ s, a = .ok s → (r₀.history es).ClosesAs s) ∧
      (r₀.plan.pace.capFits = true → (r₀.history es).countReply?.isSome = true) := by
  have hagree := (latch_of_steps hfresh h).1
  obtain ⟨A, R, B, hacc, hH⟩ := account_of_steps hfresh h
  have hne := phase_ne_crashed hfresh h hmain
  rw [hH] at hagree ⊢
  obtain ⟨hcount, hclosing⟩ := hacc.replies_eq
  rw [hcount, hclosing, History.anyFailure, hacc.any_isAskError]
  cases hph : r.phase with
  | «over» o =>
    obtain ⟨heq, hread, hwrote⟩ := hacc.answer_of_over hagree hph ha
    refine ⟨heq, ?_, fun _ => hread⟩
    intro s hs
    obtain ⟨⟨time, hwritten⟩, honly⟩ := hwrote s hs
    refine ⟨⟨time, ?_⟩, ?_⟩
    · exact List.mem_append_right _ (History.mem_solo.mpr ⟨rfl, (mem_visible rfl).mp hwritten⟩)
    · intro w job u hmem hend
      have hclose := (hacc.mem_closing hmem rfl hend).2
      exact honly job u ((mem_visible rfl).mpr hclose)
  | crashed =>
    -- the run could not set up its permits, and neither call was made
    have hcap : r₀.plan.pace.capFits = false := by
      cases hfits : r₀.plan.pace.capFits with
      | true => exact absurd hph (hne hfits)
      | false => rfl
    obtain ⟨rfl, rfl, _⟩ := hacc.of_not_fits hcap
    simp only [answer?, hph, Option.some.injEq] at ha
    subst ha
    exact ⟨rfl, fun _ hs => absurd hs (by simp), by simp [hcap]⟩
  | starting | admitting | pausing | acquiring | joining | finalizing =>
    simp [answer?, hph] at ha

end Run

/-! ## From the client's request on -/

namespace Plan.Prepared

variable {i : Identity} {p : Product} {pace : Pace} {csv : Text.Bytes} {job : JobRef}
  {A : List Act} {plan : Plan}

theorem about (h : Prepared i p pace csv job A plan) : About (·.isRun = false) A := by
  cases h with
  | mk hrows hA =>
    intro a ha c hc
    rcases List.mem_append.mp ha with ha | ha
    · have hadm := hA a ha c hc
      cases c <;> simp_all [Call.isAdmission, Call.isRun]
    · simp only [List.mem_cons, List.not_mem_nil, or_false] at ha
      rcases ha with rfl | rfl | rfl
      · cases hc
        rfl
      · cases hc
        rfl
      · cases hc

theorem plan_eq (h : Prepared i p pace csv job A plan) : ∃ rows, dataRows p csv = .ok rows ∧
    plan.brief.job = job.id ∧ plan.brief.total = .ofNat rows.length ∧ plan.pace = pace := by
  cases h with
  | mk hrows _ => exact ⟨_, hrows, rfl, rfl, rfl⟩

theorem job_unique (h : Prepared i p pace csv job A plan) {req : JobRequest} {job' : JobRef}
    (hmem : .answered (.createJob req) (.ok job') ∈ A) : job' = job := by
  cases h with
  | mk hrows hA =>
    rcases List.mem_append.mp hmem with hmem | hmem
    · cases hA _ hmem _ rfl
    · simp only [List.mem_cons, reduceCtorEq, Act.answered.injEq, List.not_mem_nil, or_false,
        false_or] at hmem
      obtain ⟨hcall, hreply⟩ := hmem
      cases hcall
      cases hreply
      rfl

theorem quiet (h : Prepared i p pace csv job A plan) :
    Unclosing A ∧ A.any Act.isAskError = false := by
  constructor
  · intro a ha c hc
    have hrun := h.about a ha c hc
    cases c <;> simp_all [Call.isRun, Call.closesJob]
  · apply List.any_eq_false.mpr
    intro a ha
    have hrun := h.about a ha
    cases a with
    | answered c o => cases c <;> simp_all [Act.about?, Act.isAskError, Call.isRun]
    | _ => simp [Act.isAskError]

end Plan.Prepared

namespace Dispatch

/-- The upload of `csv` has come to `d` by the history `H`: its job has been created, and no call of
its main strand crashed. -/
structure Created (i : Identity) (p : Product) (pace : Pace) (csv : Text.Bytes) (job : JobRef)
    (H : History) (d : Dispatch) : Prop where
  reached : ∃ shared now journal es,
    (new (Plan.prepare i p pace csv) shared now journal).steps? es = some d ∧
      (new (Plan.prepare i p pace csv) shared now journal).history es = H
  created : ∃ req, (.main, .answered (.createJob req) (.ok job)) ∈ H
  calm : ∀ a ∈ H.of .main, a.isCrash = false

variable {i : Identity} {p : Product} {pace : Pace} {csv : Text.Bytes} {job : JobRef}
  {H : History} {d : Dispatch} {a : Except Refusal Summary}

theorem not_created_by_run {r₀ r : Run} {es : List Bulk.Event} (hfresh : r₀.Fresh)
    (h : r₀.steps? es = some r) (req : JobRequest) :
    (.main, .answered (.createJob req) (.ok job)) ∉ r₀.history es := by
  intro hmem
  cases Run.about_of_steps hfresh h _ (History.mem_acts hmem) _ rfl

/-- An upload that has been answered had its job created by its preparation, and then its run. -/
theorem Created.run (h : Created i p pace csv job H d) (ha : d.answer? = some a) :
    ∃ (A : List Act) (r₀ : Run) (es : List Bulk.Event) (r : Run),
      H = .solo .main A ++ r₀.history es ∧ Plan.Prepared i p pace csv job A r₀.plan ∧
        r₀.Fresh ∧ r₀.steps? es = some r ∧ r.answer? = some a := by
  obtain ⟨shared, now, journal, es, hes, hH⟩ := h.reached
  obtain ⟨req, hjob⟩ := h.created
  have hacc := account_of_steps hes
  rw [hH] at hacc
  cases hacc with
  | preparing => cases ha
  | refused hc =>
    rcases Plan.prepare_ended hc with ⟨_, _, hnone⟩ | ⟨_, _, heq, _⟩
    · exact absurd (History.mem_solo.mp hjob).2 (hnone req job)
    · cases heq
  | stopped => cases ha
  | @running A fs r gone r₀ hc hfresh hfs =>
    rcases Plan.prepare_ended hc with ⟨_, heq, _⟩ | ⟨job', plan, heq, hprep⟩
    · cases heq
    · cases heq
      have hmem : .answered (.createJob req) (.ok job) ∈ A := by
        rcases List.mem_append.mp hjob with hjob | hjob
        · exact (History.mem_solo.mp hjob).2
        · exact absurd hjob (not_created_by_run hfresh hfs req)
      rw [hprep.job_unique hmem]
      cases gone with
      | true => cases ha
      | false => exact ⟨A, r₀, fs, r, rfl, hprep, hfresh, hfs, ha⟩

theorem Created.answer_eq (h : Created i p pace csv job H d) (ha : d.answer? = some a) :
    ∃ rows, Plan.dataRows p csv = .ok rows ∧
      a = answerOf job.id (.ofNat rows.length) H.anyFailure H.countReply? H.closingReply? ∧
      (∀ s, a = .ok s → H.ClosesAs s) ∧
      (pace.capFits = true → H.countReply?.isSome = true) := by
  obtain ⟨A, r₀, es, r, rfl, hprep, hfresh, hes, ha⟩ := h.run ha
  obtain ⟨rows, hrows, hid, htotal, hpace⟩ := hprep.plan_eq
  obtain ⟨hcloses, hask⟩ := hprep.quiet
  obtain ⟨hcount, hclosing, hfailure⟩ := History.replies_append hcloses hask (r₀.history es)
  have hmain : ∀ a ∈ (r₀.history es).of .main, a.isCrash = false := fun a ha =>
    h.calm a (by simp [ha])
  obtain ⟨heq, hwrote, hread⟩ := Run.answer_of_steps hfresh hes hmain ha
  rw [hid, htotal] at heq
  rw [hpace] at hread
  rw [hcount, hclosing, hfailure]
  exact ⟨rows, hrows, heq, fun s hs => (hwrote s hs).prepend hcloses, hread⟩

/-- **Row failures never reach the client, and what it is told is exact.** For an upload whose job
has been created and whose main strand does not crash, the answer is `answerOf` of the replies to
the two calls that close the job and of whether some product call failed: it tells of a job just if
both calls succeeded, and then of the job as it was written. So uploads of as many rows that agree
on these are answered alike, but for the job. An upload whose client stays can be brought to its
answer, whatever the services reply. -/
theorem answered_by_two_replies {i : Identity} {p : Product} {pace : Pace} {csv : Text.Bytes}
    {job : JobRef} {H : History} {d : Dispatch} (h : Created i p pace csv job H d) :
    (∀ a, d.answer? = some a →
      ∃ rows, Plan.dataRows p csv = .ok rows ∧
        a = answerOf job.id (.ofNat rows.length) H.anyFailure H.countReply? H.closingReply? ∧
        ((∃ s, a = .ok s) ↔
          (∃ n, H.countReply? = some (.ok n)) ∧ H.closingReply? = some (.ok ())) ∧
        (∀ s, a = .ok s → H.ClosesAs s) ∧
        (pace.capFits = true → H.countReply?.isSome = true)) ∧
    (∀ i' p' pace' csv' job' H' d' a a', Created i' p' pace' csv' job' H' d' →
      d.answer? = some a → d'.answer? = some a' →
      (Plan.dataRows p' csv').map List.length = (Plan.dataRows p csv).map List.length →
      H'.countReply? = H.countReply? → H'.closingReply? = H.closingReply? →
      H'.anyFailure = H.anyFailure → a'.map ({ · with job := job.id }) = a) ∧
    (d.Present → pace.cap ≠ some 0 → ∀ clock f,
      ∃ d', Leads clock f d d' ∧ d'.answer?.isSome = true) := by
  refine ⟨?_, ?_, ?_⟩
  · intro a ha
    obtain ⟨rows, hrows, heq, hwrote, hread⟩ := h.answer_eq ha
    refine ⟨rows, hrows, heq, ?_, hwrote, hread⟩
    rw [heq]
    exact answerOf_ok_iff
  · intro i' p' pace' csv' job' H' d' a a' h' ha ha' hlen hcount hclosing hfailure
    obtain ⟨rows, hrows, heq, _⟩ := h.answer_eq ha
    obtain ⟨rows', hrows', heq', _⟩ := h'.answer_eq ha'
    rw [hrows, hrows'] at hlen
    have hlen : rows'.length = rows.length := Except.ok.inj hlen
    rw [heq', heq, hcount, hclosing, hfailure, hlen, map_answerOf]
  · intro hpresent hcap clock f
    obtain ⟨shared, now, journal, es, hes, _⟩ := h.reached
    refine answers_of_steps hes hpresent ?_ clock f
    intro A plan hA
    rcases Plan.prepare_ended hA with ⟨_, heq, _⟩ | ⟨job', plan', heq, hprep⟩
    · cases heq
    · cases heq
      obtain ⟨_, _, _, _, hpace⟩ := hprep.plan_eq
      rwa [hpace]

/-- Services that fail wherever an answer does not hang on them. -/
def failing : (c : Call) → c.Outcome
  | .subscription .. => .ok (⟨3, 4, default⟩ : Subscription)
  | .createJob r => .ok (⟨1, r.member, r.company⟩ : JobRef)
  | .processedCount _ => .ok (0 : UInt64)
  | .updateJob _ u => if u.endAt.isSome then .ok () else .error (.timedOut .core)
  | _ => .error (.timedOut .core)

def oneRow : Dispatch :=
  new (Plan.prepare ⟨9, 5, 0, 0, "0", "key-1"⟩ .phoneLiveStatus ⟨100, 1000, none⟩
    (Text.utf8 "Phone Number\n081234567890\n")) ⟨0, false, []⟩ 0 []

/-- How it may go if the job cannot be opened, its row fails, and neither of it can be written. -/
def oneRowCourse : List Bulk.Event :=
  Run.moves .main 1 ++ [.reply .main failing] ++ Run.moves .main 1 ++ [.reply .main failing] ++
    Run.moves .main 4 ++ [.reply .main failing] ++ Run.moves .main 5 ++ Run.moves (.row 0) 2 ++
    [.reply (.row 0) failing] ++ Run.moves (.row 0) 2 ++ [.reply (.row 0) failing] ++
    Run.moves (.row 0) 4 ++ [.reply (.row 0) failing] ++ Run.moves (.row 0) 1 ++ [.join 0] ++
    Run.moves .main 2 ++ [.reply .main failing] ++ Run.moves .main 3 ++ [.reply .main failing] ++
    Run.moves .main 3

/-- The client of `oneRow` is told of the job as it was written, for all that failed before. -/
theorem one_row_answered : ∃ d, oneRow.steps? (oneRowCourse.map .run) = some d ∧
    d.answer? = some (.ok ⟨1, 1, 0, .failed⟩) ∧
    (oneRow.history (oneRowCourse.map .run)).ClosesAs ⟨1, 1, 0, .failed⟩ := by
  refine ⟨_, rfl, rfl, ?_⟩
  have hjob : (.main, .answered (.createJob ⟨4, 5, 9, 1⟩) (.ok ⟨1, 5, 9⟩)) ∈
      oneRow.history (oneRowCourse.map .run) := List.mem_of_getElem? (i := 3) rfl
  have hcalm : ∀ a ∈ (oneRow.history (oneRowCourse.map .run)).of .main, a.isCrash = false := by
    decide +kernel
  obtain ⟨_, _, _, _, hwrote, _⟩ :=
    (answered_by_two_replies ⟨⟨_, _, _, _, rfl, rfl⟩, ⟨_, hjob⟩, hcalm⟩).1 _ rfl
  exact hwrote _ rfl

end Dispatch

end Bulk

end Vetting
