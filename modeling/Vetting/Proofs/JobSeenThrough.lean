import Vetting.Proofs.BulkOfOne
import Vetting.Proofs.StatusHistory
import Vetting.Service.Client

/-! # Created jobs are seen through

A job that has been created for a single submission is seen through to its end, whatever fails on
the way: its product is asked once, one log call is made, the count is read once, and the job is
closed if there is a count. `Single.SeenThrough` says so, and what the client is told: the first
that failed of the product, the log and the closing of the job, in this order, or the product's
answer if none did. -/

namespace Vetting

/-! ## A valid row and its result -/

namespace Row

variable {b : Brief} {s : Submission} {A V : List Act} {r : Result}

/-- All that others see of a valid row that has ended, and its result. -/
inductive Served (b : Brief) (s : Submission) : List Act → Result → Prop where
  | failed {N e} (err : ServiceError) (o : Except ServiceError Unit) : Noted b N →
      e.Says b s (Logbook.failed err) →
      Served b s (.called (ask b s) :: .answered (ask b s) (.error err) :: N ++
        [.called (.writeLog e), .answered (.writeLog e) o])
        ⟨.failed e.transactionId err, errorOf o⟩
  | succeeded {c} (id : String) (a : PartnerAnswer) (o : c.Outcome) : Recorded b s a c →
      Served b s [.called (ask b s), .answered (ask b s) (.ok a), .called c, .answered c o]
        ⟨.succeeded id a, errorOf o⟩

theorem log_ended {remark : Logbook.Remark} {time : Instant} {k : String → Outcome}
    (h : Course (log b s remark time k) A (.ended r)) :
    ∃ (e : LogEntry) (o : Except ServiceError Unit), e.Says b s remark ∧
      visible A = [.called (.writeLog e), .answered (.writeLog e) o] ∧
      r = ⟨k e.transactionId, errorOf o⟩ := by
  cases h with
  | fresh n h =>
    cases h with
    | clock i h =>
      cases h with
      | clock j h =>
        cases h with
        | call o h =>
          obtain ⟨rfl, hr⟩ := h.of_done
          exact ⟨_, o, ⟨_, _, _, rfl⟩, rfl, hr.eq_of_ended⟩

theorem recordSuccess_ended {a : PartnerAnswer} {time : Instant}
    (h : Course (recordSuccess b s a time) A (.ended r)) :
    ∃ id c, ∃ o : c.Outcome, Recorded b s a c ∧ visible A = [.called c, .answered c o] ∧
      r = ⟨.succeeded id a, errorOf o⟩ := by
  simp only [recordSuccess] at h
  split at h
  · next id hid =>
    cases h with
    | call o h =>
      obtain ⟨rfl, hr⟩ := h.of_done
      exact ⟨id, _, o, by simp [Recorded, hid], rfl, hr.eq_of_ended⟩
  · next hid =>
    obtain ⟨e, o, hentry, hA, hr⟩ := log_ended h
    refine ⟨_, .writeLog e, o, ?_, hA, hr⟩
    simp only [Recorded, hid]
    exact ⟨e, hentry, rfl⟩

/-- **How a valid row ends.** -/
theorem served_of_ended (hvalid : s.check = none) (h : Course (handle b s) A (.ended r)) :
    Served b s (visible A) r := by
  unfold handle at h
  rw [hvalid] at h
  cases h with
  | clock i h =>
  cases h with
  | call o h =>
  cases o with
  | ok a =>
    obtain ⟨id, c, o, hrecorded, hA, rfl⟩ := recordSuccess_ended h
    have hserved := Served.succeeded id a o hrecorded
    rw [← hA] at hserved
    exact hserved
  | error err =>
    have hlog {A : List Act} (h : Course (log b s (Logbook.failed err) i fun id =>
        .failed id err) A (.ended r)) := log_ended h
    cases h with
    | trip before h =>
    cases before with
    | true =>
      obtain ⟨e, o, hentry, hA, rfl⟩ := hlog h
      have hserved := Served.failed err o .again hentry
      rw [← hA] at hserved
      exact hserved
    | false =>
      cases h with
      | call written h =>
        obtain ⟨e, o, hentry, hA, rfl⟩ := hlog h
        have hserved := Served.failed err o (.first written) hentry
        rw [← hA] at hserved
        exact hserved

/-! ### What a valid row asked and what it was told -/

theorem Served.about (h : Served b s V r) :
    About (fun c => c.isRun = true ∧ c.closesJob = false) V := by
  cases h with
  | failed err o hN => cases hN <;> simp [About, Act.about?, Call.isRun, Call.closesJob]
  | @succeeded c id a o hrecorded =>
    have hlog := hrecorded.isLog
    cases c with
    | writeLog | confirmLog => simp [About, Act.about?, Call.isRun, Call.closesJob]
    | _ => cases hlog

theorem Served.calls (h : Served b s V r) :
    (callsOf V).filter Call.isAsk = [ask b s] ∧ (callsOf V).countP Call.isLog = 1 := by
  cases h with
  | failed err o hN => cases hN <;> exact ⟨rfl, rfl⟩
  | @succeeded c id a o hrecorded =>
    have hlog := hrecorded.isLog
    cases c with
    | writeLog | confirmLog => exact ⟨rfl, rfl⟩
    | _ => cases hlog

theorem Served.outcome_eq (h : Served b s V r) {o : (ask b s).Outcome}
    (ho : .answered (ask b s) o ∈ V) :
    (∃ err id, o = .error err ∧ r.outcome = .failed id err) ∨
      ∃ a id, o = .ok a ∧ r.outcome = .succeeded id a := by
  cases h with
  | @failed N e err o' hN =>
    have hlog : Act.answered (ask b s) o ≠ .answered (.writeLog e) o' := nofun
    have hback : o = .error err := by cases hN <;> simpa [hlog] using ho
    exact .inl ⟨err, _, hback, rfl⟩
  | @succeeded c id a o' hrecorded =>
    have hlog := hrecorded.isLog
    have hback : o = .ok a := by
      simp only [List.mem_cons, reduceCtorEq, false_or, List.not_mem_nil, or_false] at ho
      rcases ho with ho | ho
      · cases ho
        rfl
      · cases ho
        cases hlog
    exact .inr ⟨a, id, hback, rfl⟩

theorem Served.logError_eq (h : Served b s V r) {c : Call} {o : c.Outcome} (hc : c.isLog = true)
    (ho : .answered c o ∈ V) : r.logError = errorOf o := by
  cases h with
  | @failed N e err o' hN =>
    have hback : Act.answered c o = .answered (.writeLog e) o' := by
      cases hN
      all_goals
        simp only [List.cons_append, List.nil_append, List.mem_cons, reduceCtorEq, false_or,
          List.not_mem_nil, or_false] at ho
        grind [Call.isLog]
    cases hback
    rfl
  | @succeeded c' id a o' hrecorded =>
    simp only [List.mem_cons, reduceCtorEq, false_or, List.not_mem_nil, or_false] at ho
    rcases ho with ho | ho
    · cases ho
      cases hc
    · cases ho
      rfl

theorem Served.answered (h : Served b s V r) :
    (∃ o, .answered (ask b s) o ∈ V) ∧ ∃ c, ∃ o : c.Outcome, c.isLog = true ∧ .answered c o ∈ V := by
  cases h with
  | @failed N e err o hN =>
    exact ⟨⟨.error err, by simp⟩, .writeLog e, o, rfl, by simp⟩
  | @succeeded c id a o hrecorded =>
    exact ⟨⟨.ok a, by simp⟩, c, o, hrecorded.isLog, by simp⟩

end Row

/-! ## The closing of a job and its replies -/

namespace Call

/-- Whether a call is the write that closes a job. -/
def isFinalWrite : Call → Bool
  | .updateJob _ u => u.endAt.isSome
  | _ => false

variable {c : Call}

theorem rowCall_of_isAsk (h : c.isAsk = true) : c.isRun = true ∧ c.closesJob = false := by
  cases c <;> first | exact ⟨rfl, rfl⟩ | cases h

theorem rowCall_of_isLog (h : c.isLog = true) : c.isRun = true ∧ c.closesJob = false := by
  cases c <;> first | exact ⟨rfl, rfl⟩ | cases h

theorem closingCall_of_isCountRead (h : c.isCountRead = true) :
    c.isRun = true ∧ c.closesJob = true := by
  cases c <;> first | exact ⟨rfl, rfl⟩ | cases h

theorem closingCall_of_isFinalWrite (h : c.isFinalWrite = true) :
    c.isRun = true ∧ c.closesJob = true := by
  cases c <;> first | exact ⟨rfl, h⟩ | cases h

end Call

theorem About.filter_callsOf {R : Call → Prop} {A : List Act} {q : Call → Bool} (h : About R A)
    (hq : ∀ c, q c = true → ¬ R c) : (callsOf A).filter q = [] :=
  List.filter_eq_nil_iff.mpr fun c hc hqc => hq c hqc (h.of_mem_callsOf hc)

namespace Tracking

variable {job total : UInt64} {W : List Act} {final : Except ServiceError Final}

theorem Closed.about (h : Closed job total W final) : About (·.closesJob = true) W := by
  cases h <;> simp [About, Act.about?, Call.closesJob]

/-- The closing of a job reads the count once and, if it has got one, makes the last write. -/
theorem Closed.calls (h : Closed job total W final) :
    (callsOf W).filter Call.isCountRead = [.processedCount job] ∧
      (∀ n, .answered (.processedCount job) (.ok n) ∈ W →
        (callsOf W).countP Call.isFinalWrite = 1) ∧
      ∀ err, .answered (.processedCount job) (.error err) ∈ W →
        (callsOf W).countP Call.isFinalWrite = 0 := by
  cases h with
  | unreadable e => exact ⟨rfl, by simp, fun _ _ => rfl⟩
  | unwritten n latch time e => exact ⟨rfl, fun _ _ => rfl, by simp⟩
  | written n latch time => exact ⟨rfl, fun _ _ => rfl, by simp⟩

theorem Closed.error_eq (h : Closed job total W final) {c : Call} {err : ServiceError}
    (ho : .answered c (.error err) ∈ W) : final = .error err := by
  cases h with
  | unreadable e =>
    simp only [List.mem_cons, reduceCtorEq, false_or, List.not_mem_nil, or_false] at ho
    cases ho
    rfl
  | unwritten n latch time e =>
    simp only [List.mem_cons, reduceCtorEq, false_or, List.not_mem_nil, or_false] at ho
    rcases ho with ho | ho
    · cases ho
    · cases ho
      rfl
  | written n latch time =>
    simp only [List.mem_cons, reduceCtorEq, false_or, List.not_mem_nil, or_false] at ho
    rcases ho with ho | ho <;> cases ho

theorem Closed.failed {err : ServiceError} (h : Closed job total W (.error err)) :
    ∃ c : Call, c.closesJob = true ∧ .answered c (.error err) ∈ W := by
  cases h with
  | unreadable e => exact ⟨.processedCount job, rfl, by simp⟩
  | unwritten n latch time e => exact ⟨closing job total n latch time, rfl, by simp⟩

/-- A job is closed if there is a count and its last write is taken. -/
theorem Closed.ok_iff (h : Closed job total W final) :
    (∃ f, final = .ok f) ↔ (∃ n, .answered (.processedCount job) (.ok n) ∈ W) ∧
      ∃ u : JobUpdate, u.endAt.isSome = true ∧ .answered (.updateJob job u) (.ok ()) ∈ W := by
  cases h with
  | unreadable e => simp
  | unwritten n latch time e =>
    refine iff_of_false (by simp) ?_
    rintro ⟨-, u, -, hu⟩
    simp only [List.mem_cons, reduceCtorEq, false_or, List.not_mem_nil, or_false] at hu
    rcases hu with hu | hu <;> cases hu
  | written n latch time =>
    exact iff_of_true ⟨_, rfl⟩ ⟨⟨n, by simp⟩, ⟨some (min n total), finalStatus latch, some time⟩,
      rfl, by simp⟩

end Tracking

/-! ## A submission whose job has been created -/

namespace Single

/-- What a submission has done by its end whose job has been created, and what the client is told:
the job is seen through, whatever fails on the way. -/
structure SeenThrough (b : Brief) (s : Submission) (A : List Act)
    (x : Except Refusal PartnerAnswer) : Prop where
  asked_once : (callsOf A).filter Call.isAsk = [Row.ask b s]
  logged_once : (callsOf A).countP Call.isLog = 1
  counted_once : (callsOf A).filter Call.isCountRead = [.processedCount b.job]
  /-- The count is read after the product and the log have answered. -/
  counted_late : ∀ A₁ A₂ job, A = A₁ ++ .called (.processedCount job) :: A₂ →
    (∃ o, .answered (Row.ask b s) o ∈ A₁) ∧
      ∃ c, ∃ o : c.Outcome, c.isLog = true ∧ .answered c o ∈ A₁
  /-- The last write is made once if there is a count, else not at all. -/
  written_once : ∀ n, .answered (.processedCount b.job) (.ok n) ∈ A →
    (callsOf A).countP Call.isFinalWrite = 1
  unwritten : ∀ err, .answered (.processedCount b.job) (.error err) ∈ A →
    (callsOf A).countP Call.isFinalWrite = 0
  /-- A failure of the product is what the client is told of, whatever else fails. -/
  product_failed : ∀ err, .answered (Row.ask b s) (.error err) ∈ A → x = .error (.ofService err)
  /-- A failure of the log comes before one of the closing. -/
  log_failed : ∀ a c err, .answered (Row.ask b s) (.ok a) ∈ A → c.isLog = true →
    .answered c (.error err) ∈ A → x = .error (.ofService err)
  closing_failed : ∀ a c c' r err, .answered (Row.ask b s) (.ok a) ∈ A → c.isLog = true →
    .answered c (.ok r) ∈ A → c'.closesJob = true → .answered c' (.error err) ∈ A →
    x = .error (.ofService err)
  /-- The client is told of these failures only. -/
  failed : ∀ r, x = .error r → ∃ c err, (c = Row.ask b s ∨ c.isLog = true ∨ c.closesJob = true) ∧
    .answered c (.error err) ∈ A ∧ r = .ofService err
  /-- The client gets the answer if nothing failed but the writes before the last one. -/
  ok_iff : ∀ a, x = .ok a ↔ .answered (Row.ask b s) (.ok a) ∈ A ∧
    (∃ c r, c.isLog = true ∧ .answered c (.ok r) ∈ A) ∧
    (∃ n, .answered (.processedCount b.job) (.ok n) ∈ A) ∧
    ∃ u : JobUpdate, u.endAt.isSome = true ∧ .answered (.updateJob b.job u) (.ok ()) ∈ A

/-! ### The verdict -/

section Verdict

variable {r : Row.Result} {final : Except ServiceError Tracking.Final} {id : String}
  {a : PartnerAnswer} {err : ServiceError}

theorem verdict_of_failed (h : r.outcome = .failed id err) :
    verdict r final = .error (.ofService err) := by simp [verdict, h]

theorem verdict_of_unlogged (h : r.outcome = .succeeded id a) (hlog : r.logError = some err) :
    verdict r final = .error (.ofService err) := by simp [verdict, h, hlog]

theorem verdict_of_unclosed (h : r.outcome = .succeeded id a) (hlog : r.logError = none)
    (hfinal : final = .error err) : verdict r final = .error (.ofService err) := by
  simp [verdict, h, hlog, hfinal]

theorem verdict_eq_ok : verdict r final = .ok a ↔
    (∃ id, r.outcome = .succeeded id a) ∧ r.logError = none ∧ ∃ f, final = .ok f := by
  unfold verdict
  cases r.outcome with
  | failed | invalid => simp
  | succeeded id a' =>
    cases r.logError with
    | some e => simp
    | none => cases final <;> simp

end Verdict

/-- The parts of what was done for a submission whose job was created. -/
structure Parts (b : Brief) (s : Submission) (A P V W : List Act) (r : Row.Result)
    (final : Except ServiceError Tracking.Final) : Prop where
  acts : ∃ o, visible A = P ++ (.called (Tracking.opening b.job) ::
    .answered (Tracking.opening b.job) o :: V ++ W)
  prepared : About (·.isRun = false) P
  served : Row.Served b s V r
  closed : Tracking.Closed b.job b.total W final

namespace Parts

variable {b : Brief} {s : Submission} {A P V W : List Act} {r : Row.Result}
  {final : Except ServiceError Tracking.Final} {a : Act} {c : Call}

theorem mem_parts (h : Parts b s A P V W r final) (ha : a ∈ A) (hc : a.about? = some c) :
    c.isRun = false ∨ c = Tracking.opening b.job ∨ a ∈ V ∨ a ∈ W := by
  obtain ⟨o, hacts⟩ := h.acts
  have hloud : a.isSilent = false := by cases a <;> first | rfl | cases hc
  have hseen : a ∈ visible A := (mem_visible hloud).mpr ha
  rw [hacts] at hseen
  simp only [List.mem_append, List.mem_cons] at hseen
  rcases hseen with hP | (rfl | rfl | hV) | hW
  · exact .inl (h.prepared a hP c hc)
  · exact .inr (.inl (Option.some.inj hc).symm)
  · exact .inr (.inl (Option.some.inj hc).symm)
  · exact .inr (.inr (.inl hV))
  · exact .inr (.inr (.inr hW))

theorem mem_row (h : Parts b s A P V W r final) (ha : a ∈ A) (hc : a.about? = some c)
    (hrow : c.isAsk = true ∨ c.isLog = true) : a ∈ V := by
  obtain ⟨hrun, hopen⟩ : c.isRun = true ∧ c.closesJob = false :=
    hrow.elim Call.rowCall_of_isAsk Call.rowCall_of_isLog
  rcases h.mem_parts ha hc with hnot | rfl | hV | hW
  · cases hrun.symm.trans hnot
  · simp [Call.isAsk, Call.isLog] at hrow
  · exact hV
  · cases hopen.symm.trans (h.closed.about a hW c hc)

theorem mem_closing (h : Parts b s A P V W r final) (ha : a ∈ A) (hc : a.about? = some c)
    (hclose : c.closesJob = true) : a ∈ W := by
  rcases h.mem_parts ha hc with hnot | rfl | hV | hW
  · cases c <;> simp [Call.closesJob, Call.isRun] at hclose hnot
  · cases hclose
  · cases hclose.symm.trans (h.served.about a hV c hc).2
  · exact hW

theorem mem_of_row (h : Parts b s A P V W r final) (ha : a ∈ V) (hloud : a.isSilent = false) :
    a ∈ A := by
  obtain ⟨o, hacts⟩ := h.acts
  refine (mem_visible hloud).mp ?_
  rw [hacts]
  simp [ha]

theorem mem_of_closing (h : Parts b s A P V W r final) (ha : a ∈ W) (hloud : a.isSilent = false) :
    a ∈ A := by
  obtain ⟨o, hacts⟩ := h.acts
  refine (mem_visible hloud).mp ?_
  rw [hacts]
  simp [ha]

theorem callsOf_eq (h : Parts b s A P V W r final) :
    callsOf A = callsOf P ++ (Tracking.opening b.job :: callsOf V ++ callsOf W) := by
  obtain ⟨o, hacts⟩ := h.acts
  rw [← callsOf_visible A, hacts, callsOf_append, List.cons_append, List.cons_append, callsOf_cons,
    callsOf_cons, callsOf_append]
  rfl

theorem filter_row (h : Parts b s A P V W r final) {q : Call → Bool}
    (hq : ∀ c, q c = true → c.isRun = true ∧ c.closesJob = false)
    (hopen : q (Tracking.opening b.job) = false) :
    (callsOf A).filter q = (callsOf V).filter q := by
  have hprep : (callsOf P).filter q = [] :=
    h.prepared.filter_callsOf fun c hqc => by simp [hq c hqc]
  have hclosing : (callsOf W).filter q = [] :=
    h.closed.about.filter_callsOf fun c hqc => by simp [hq c hqc]
  rw [h.callsOf_eq, List.filter_append, hprep, List.nil_append, List.cons_append,
    List.filter_cons_of_neg (by simp [hopen]), List.filter_append, hclosing, List.append_nil]

theorem filter_closing (h : Parts b s A P V W r final) {q : Call → Bool}
    (hq : ∀ c, q c = true → c.isRun = true ∧ c.closesJob = true) :
    (callsOf A).filter q = (callsOf W).filter q := by
  have hprep : (callsOf P).filter q = [] :=
    h.prepared.filter_callsOf fun c hqc => by simp [hq c hqc]
  have hrow : (callsOf V).filter q = [] :=
    h.served.about.filter_callsOf fun c hqc => by simp [hq c hqc]
  have hopening : q (Tracking.opening b.job) ≠ true := by
    intro hqc
    cases (hq _ hqc).2
  rw [h.callsOf_eq, List.filter_append, hprep, List.nil_append, List.cons_append,
    List.filter_cons_of_neg hopening, List.filter_append, hrow, List.nil_append]

theorem succeeded_iff (h : Parts b s A P V W r final) {a : PartnerAnswer} :
    (∃ id, r.outcome = .succeeded id a) ↔ .answered (Row.ask b s) (.ok a) ∈ A := by
  constructor
  · rintro ⟨id, hid⟩
    obtain ⟨⟨o, ho⟩, -⟩ := h.served.answered
    rcases h.served.outcome_eq ho with ⟨err, id', -, heq⟩ | ⟨a', id', rfl, heq⟩
    · cases hid.symm.trans heq
    · cases hid.symm.trans heq
      exact h.mem_of_row ho rfl
  · intro ha
    rcases h.served.outcome_eq (h.mem_row ha rfl (.inl rfl)) with ⟨_, _, heq, -⟩ | ⟨a', id, heq, hid⟩
    · cases heq
    · cases heq
      exact ⟨id, hid⟩

theorem logged_iff (h : Parts b s A P V W r final) :
    r.logError = none ↔ ∃ c r, c.isLog = true ∧ .answered c (.ok r) ∈ A := by
  constructor
  · intro hnone
    obtain ⟨-, c, o, hc, ho⟩ := h.served.answered
    have hlog := h.served.logError_eq hc ho
    cases o with
    | error err => cases hnone.symm.trans hlog
    | ok reply => exact ⟨c, reply, hc, h.mem_of_row ho rfl⟩
  · rintro ⟨c, reply, hc, ho⟩
    exact h.served.logError_eq hc (h.mem_row ho rfl (.inr hc))

theorem closed_iff (h : Parts b s A P V W r final) :
    (∃ f, final = .ok f) ↔ (∃ n, .answered (.processedCount b.job) (.ok n) ∈ A) ∧
      ∃ u : JobUpdate, u.endAt.isSome = true ∧ .answered (.updateJob b.job u) (.ok ()) ∈ A := by
  rw [h.closed.ok_iff]
  constructor
  · rintro ⟨⟨n, hn⟩, u, hu, hwritten⟩
    exact ⟨⟨n, h.mem_of_closing hn rfl⟩, u, hu, h.mem_of_closing hwritten rfl⟩
  · rintro ⟨⟨n, hn⟩, u, hu, hwritten⟩
    exact ⟨⟨n, h.mem_closing hn rfl rfl⟩, u, hu, h.mem_closing hwritten rfl hu⟩

/-- Some call has failed of which the client is told. -/
theorem failed (h : Parts b s A P V W r final) {e : Refusal} (he : verdict r final = .error e) :
    ∃ c err, (c = Row.ask b s ∨ c.isLog = true ∨ c.closesJob = true) ∧
      .answered c (.error err) ∈ A ∧ e = .ofService err := by
  have htold {err : ServiceError} (herr : verdict r final = .error (.ofService err)) :
      e = .ofService err := Except.error.inj (he.symm.trans herr)
  obtain ⟨⟨o, ho⟩, c, ol, hc, hol⟩ := h.served.answered
  rcases h.served.outcome_eq ho with ⟨err, id, rfl, hid⟩ | ⟨a, id, rfl, hid⟩
  · exact ⟨_, err, .inl rfl, h.mem_of_row ho rfl, htold (verdict_of_failed hid)⟩
  have hlog := h.served.logError_eq hc hol
  cases ol with
  | error err =>
    exact ⟨c, err, .inr (.inl hc), h.mem_of_row hol rfl, htold (verdict_of_unlogged hid hlog)⟩
  | ok reply =>
    cases hfinal : final with
    | error err =>
      obtain ⟨c', hc', herr⟩ := (hfinal ▸ h.closed).failed
      exact ⟨c', err, .inr (.inr hc'), h.mem_of_closing herr rfl,
        htold (verdict_of_unclosed hid hlog hfinal)⟩
    | ok f =>
      have hok : verdict r final = .ok a := verdict_eq_ok.mpr ⟨⟨id, hid⟩, hlog, f, hfinal⟩
      cases he.symm.trans hok

theorem counted_late (h : Parts b s A P V W r final) {A₁ A₂ : List Act} {job : UInt64}
    (hA : A = A₁ ++ .called (.processedCount job) :: A₂) :
    (∃ o, .answered (Row.ask b s) o ∈ A₁) ∧
      ∃ c, ∃ o : c.Outcome, c.isLog = true ∧ .answered c o ∈ A₁ := by
  obtain ⟨opened, hacts⟩ := h.acts
  have hsplit : (P ++ .called (Tracking.opening b.job) ::
      .answered (Tracking.opening b.job) opened :: V) ++ W =
        visible A₁ ++ .called (.processedCount job) :: visible A₂ := by
    have hvisible : visible A = visible A₁ ++ .called (.processedCount job) :: visible A₂ := by
      rw [hA, visible, List.filter_append]
      rfl
    rw [← hvisible, hacts, List.append_assoc]
  have hnot : .called (.processedCount job) ∉ P ++ .called (Tracking.opening b.job) ::
      .answered (Tracking.opening b.job) opened :: V := by
    intro hmem
    simp only [List.mem_append, List.mem_cons, reduceCtorEq, Act.called.injEq, false_or] at hmem
    rcases hmem with hP | hV
    · cases h.prepared _ hP _ rfl
    · cases (h.served.about _ hV _ rfl).2
  obtain ⟨M, hA₁, -⟩ := exists_of_append_eq hsplit hnot
  have hrow {a : Act} (ha : a ∈ V) (hloud : a.isSilent = false) : a ∈ A₁ := by
    refine (mem_visible hloud).mp ?_
    rw [hA₁]
    simp [ha]
  obtain ⟨⟨o, ho⟩, c, ol, hc, hol⟩ := h.served.answered
  exact ⟨⟨o, hrow ho rfl⟩, c, ol, hc, hrow hol rfl⟩

/-- **The job is seen through.** -/
theorem seenThrough (h : Parts b s A P V W r final) : SeenThrough b s A (verdict r final) := by
  obtain ⟨hasks, hlogs⟩ := h.served.calls
  obtain ⟨hcounts, hwritten, hunwritten⟩ := h.closed.calls
  have hasked : (callsOf A).filter Call.isAsk = [Row.ask b s] := by
    rw [h.filter_row (fun c => Call.rowCall_of_isAsk) rfl, hasks]
  have hlogged : (callsOf A).filter Call.isLog = (callsOf V).filter Call.isLog :=
    h.filter_row (fun c => Call.rowCall_of_isLog) rfl
  have hcounted : (callsOf A).filter Call.isCountRead = [.processedCount b.job] := by
    rw [h.filter_closing fun c => Call.closingCall_of_isCountRead, hcounts]
  have hfinal : (callsOf A).filter Call.isFinalWrite = (callsOf W).filter Call.isFinalWrite :=
    h.filter_closing fun c => Call.closingCall_of_isFinalWrite
  refine ⟨hasked, ?_, hcounted, ?_, ?_, ?_, ?_, ?_, ?_, fun e => h.failed, ?_⟩
  · rw [List.countP_eq_length_filter, hlogged, ← List.countP_eq_length_filter, hlogs]
  · intro A₁ A₂ job hA
    exact h.counted_late hA
  · intro n hn
    rw [List.countP_eq_length_filter, hfinal, ← List.countP_eq_length_filter]
    exact hwritten n (h.mem_closing hn rfl rfl)
  · intro err herr
    rw [List.countP_eq_length_filter, hfinal, ← List.countP_eq_length_filter]
    exact hunwritten err (h.mem_closing herr rfl rfl)
  · intro err herr
    rcases h.served.outcome_eq (h.mem_row herr rfl (.inl rfl)) with ⟨_, id, heq, hid⟩ | ⟨_, _, heq, -⟩
    · cases heq
      exact verdict_of_failed hid
    · cases heq
  · intro a c err ha hc herr
    obtain ⟨id, hid⟩ := h.succeeded_iff.mpr ha
    exact verdict_of_unlogged hid (h.served.logError_eq hc (h.mem_row herr rfl (.inr hc)))
  · intro a c c' reply err ha hc hreply hc' herr
    obtain ⟨id, hid⟩ := h.succeeded_iff.mpr ha
    exact verdict_of_unclosed hid (h.logged_iff.mpr ⟨c, reply, hc, hreply⟩)
      (h.closed.error_eq (h.mem_closing herr rfl hc'))
  · intro a
    rw [verdict_eq_ok, h.succeeded_iff, h.logged_iff, h.closed_iff]

end Parts

end Single

end Vetting
