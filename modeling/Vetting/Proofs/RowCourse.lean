import Vetting.Desk.Row
import Vetting.Proofs.Course

/-! # What a row does

A row does little that others see: it asks its product, notes a failure on the job, and makes one
log call, which comes last. `Row.Progress` says how far a row may have come and what it has done by
then, and `Row.Handled` what a row has done that came to its end. From these a row's settings of
the latch, its writes to the job and its log calls are counted. -/

namespace Vetting

/-- An entry of the job `b` that tells of the submission `s` what the remark `r` says. -/
def LogEntry.Says (e : LogEntry) (b : Brief) (s : Submission) (r : Logbook.Remark) : Prop :=
  ∃ id requestTime responseTime, e = {
    transactionId := id, jobId := b.job, member := b.member, company := b.company
    productId := b.productId, productGroup := b.productGroup, status := r.status
    success := r.success, message := r.message, input := s.toJson, output := r.output
    data := r.data, requestTime, responseTime }

theorem LogEntry.Says.status_eq {e : LogEntry} {b : Brief} {s : Submission} {r : Logbook.Remark}
    (h : e.Says b s r) : e.status = r.status ∧ e.success = r.success := by
  obtain ⟨_, _, _, rfl⟩ := h
  exact ⟨rfl, rfl⟩

namespace Call

/-- Whether a call writes to the transaction log. -/
def isLog : Call → Bool
  | .writeLog _ => true
  | .confirmLog _ => true
  | _ => false

def isAsk : Call → Bool
  | .ask .. => true
  | _ => false

def isStatusWrite : Call → Bool
  | .updateJob .. => true
  | _ => false

end Call

namespace Act

def isStatusWrite : Act → Bool
  | .called c => c.isStatusWrite
  | _ => false

def isAskOk : Act → Bool
  | .answered (.ask ..) (.ok _) => true
  | _ => false

def isAskError : Act → Bool
  | .answered (.ask ..) (.error _) => true
  | _ => false

/-- The log's acceptance of what was written to it. -/
def isLogAccepted : Act → Bool
  | .answered (.writeLog _) (.ok _) => true
  | .answered (.confirmLog _) (.ok _) => true
  | _ => false

/-- The log's acceptance of a success of the job. -/
def isTallied (job : UInt64) : Act → Bool
  | .answered (.writeLog e) (.ok _) => e.jobId == job && e.success
  | .answered (.confirmLog _) (.ok _) => true
  | _ => false

/-- A kind of acts to which no log call belongs. -/
def IgnoresLog (p : Act → Bool) : Prop :=
  ∀ c, c.isLog = true → p (.called c) = false ∧ p (.crashed c) = false ∧
    ∀ o, p (.answered c o) = false

theorem ignoresLog_isTrip : IgnoresLog isTrip := fun _ _ => ⟨rfl, rfl, fun _ => rfl⟩

theorem ignoresLog_isFirstTrip : IgnoresLog isFirstTrip := fun _ _ => ⟨rfl, rfl, fun _ => rfl⟩

theorem ignoresLog_isStatusWrite : IgnoresLog isStatusWrite := by
  intro c hc
  cases c <;> first | exact ⟨rfl, rfl, fun _ => rfl⟩ | cases hc

theorem ignoresLog_isAskError : IgnoresLog isAskError := by
  intro c hc
  cases c <;> first | exact ⟨rfl, rfl, fun _ => rfl⟩ | cases hc

end Act

variable {α : Type}

/-- A strand that has one more call to make, one of `P`, and then ends. -/
inductive LastCall (P : Call → Prop) : List Act → Strand α → Prop where
  | before {st} : st.isOver = false → LastCall P [] st
  | asking {c st} : P c → st.isOver = false → LastCall P [.called c] st
  | lost {c} : P c → LastCall P [.called c, .crashed c] .crashed
  | back {c st} (o : c.Outcome) : P c → st ≠ .crashed →
      LastCall P [.called c, .answered c o] st

namespace LastCall

variable {P : Call → Prop} {V : List Act} {st : Strand α}

theorem countP_eq_zero (h : LastCall P V st) (hP : ∀ c, P c → c.isLog = true) {p : Act → Bool}
    (hp : Act.IgnoresLog p) : V.countP p = 0 := by
  cases h with
  | before => rfl
  | asking hc => simp [hp _ (hP _ hc)]
  | lost hc => simp [hp _ (hP _ hc)]
  | back o hc => simp [(hp _ (hP _ hc)).1, (hp _ (hP _ hc)).2.2 o]

theorem of_over (h : LastCall P V st) (hover : st.isOver = true) (hst : st ≠ .crashed) :
    ∃ c o, P c ∧ V = [.called c, .answered c o] := by
  cases h with
  | before hn => rw [hn] at hover; cases hover
  | asking _ hn => rw [hn] at hover; cases hover
  | lost => exact absurd rfl hst
  | back o hc => exact ⟨_, o, hc, rfl⟩

theorem of_mem_callsOf (h : LastCall P V st) {c : Call} (hc : c ∈ callsOf V) : P c := by
  cases h with
  | before => cases hc
  | asking hp => rwa [List.mem_singleton.mp hc]
  | lost hp => rwa [List.mem_singleton.mp hc]
  | back o hp => rwa [List.mem_singleton.mp hc]

theorem of_answered_mem (h : LastCall P V st) {c : Call} {o : c.Outcome}
    (ho : .answered c o ∈ V) : P c := by
  cases h with
  | before => cases ho
  | asking => simp at ho
  | lost => simp at ho
  | back o' hp =>
    simp only [List.mem_cons, reduceCtorEq, List.not_mem_nil, or_false, false_or] at ho
    cases ho
    exact hp

end LastCall

namespace Row

abbrev ask (b : Brief) (s : Submission) : Call := .ask b.product.route b.caller s.toJson

/-- The call that writes the job as failed before its end. -/
abbrev noteFailure (b : Brief) : Call := .updateJob b.job ⟨none, .failed, none⟩

def Entered (b : Brief) (s : Submission) (r : Logbook.Remark) (c : Call) : Prop :=
  ∃ e : LogEntry, e.Says b s r ∧ c = .writeLog e

/-- The log call for a success. -/
def Recorded (b : Brief) (s : Submission) (a : PartnerAnswer) (c : Call) : Prop :=
  match if b.product.logsOwnSuccess then none else a.transactionId with
  | some id => c = .confirmLog id
  | none => Entered b s (Logbook.succeeded a) c

theorem Entered.isLog {b : Brief} {s : Submission} {r : Logbook.Remark} {c : Call}
    (h : Entered b s r c) : c.isLog = true := by
  obtain ⟨e, _, rfl⟩ := h
  rfl

theorem Recorded.isLog {b : Brief} {s : Submission} {a : PartnerAnswer} {c : Call}
    (h : Recorded b s a c) : c.isLog = true := by
  unfold Recorded at h
  split at h
  · rw [h]; rfl
  · exact h.isLog

/-- A row whose product call failed, from then on. -/
inductive Failing (b : Brief) (s : Submission) (e : ServiceError) :
    List Act → Strand Result → Prop where
  | noting {st} : st.isOver = false → Failing b s e [] st
  | later {V st} : LastCall (Entered b s (Logbook.failed e)) V st →
      Failing b s e (.tripped true :: V) st
  | first {st} : st.isOver = false → Failing b s e [.tripped false] st
  | writing {st} : st.isOver = false → Failing b s e [.tripped false, .called (noteFailure b)] st
  | lost : Failing b s e
      [.tripped false, .called (noteFailure b), .crashed (noteFailure b)] .crashed
  | written {V st} (o : (noteFailure b).Outcome) : LastCall (Entered b s (Logbook.failed e)) V st →
      Failing b s e (.tripped false :: .called (noteFailure b) :: .answered (noteFailure b) o :: V) st

/-- How far a row may have come, and what others have seen of it by then. -/
inductive Progress (b : Brief) (s : Submission) : List Act → Strand Result → Prop where
  | refused {c V st} : s.check = some c →
      LastCall (Entered b s (Logbook.invalid c.message)) V st → Progress b s V st
  | unasked {st} : s.check = none → st.isOver = false → Progress b s [] st
  | asking {st} : s.check = none → st.isOver = false → Progress b s [.called (ask b s)] st
  | lost : s.check = none → Progress b s [.called (ask b s), .crashed (ask b s)] .crashed
  | succeeded {V st} (a : PartnerAnswer) : s.check = none → LastCall (Recorded b s a) V st →
      Progress b s (.called (ask b s) :: .answered (ask b s) (.ok a) :: V) st
  | failed {V st} (e : ServiceError) : s.check = none → Failing b s e V st →
      Progress b s (.called (ask b s) :: .answered (ask b s) (.error e) :: V) st

/-! ## A row's courses -/

variable {b : Brief} {s : Submission} {A V : List Act} {st : Strand Result}

/-- Writing an entry is a number, two times of day and one call. -/
theorem lastCall_of_log {r : Logbook.Remark} {requestTime : Instant} {k : String → Outcome}
    (h : Course (log b s r requestTime k) A st) : LastCall (Entered b s r) (visible A) st := by
  cases h with
  | rest => exact .before rfl
  | fresh n h =>
    cases h with
    | rest => exact .before rfl
    | clock i h =>
      cases h with
      | rest => exact .before rfl
      | clock j h =>
        cases h with
        | rest => exact .before rfl
        | waiting => exact .asking ⟨_, ⟨_, _, _, rfl⟩, rfl⟩ rfl
        | crashed => exact .lost ⟨_, ⟨_, _, _, rfl⟩, rfl⟩
        | call o h =>
          cases h with
          | rest => exact .back o ⟨_, ⟨_, _, _, rfl⟩, rfl⟩ nofun
          | ended => exact .back o ⟨_, ⟨_, _, _, rfl⟩, rfl⟩ nofun

theorem lastCall_of_recordSuccess {a : PartnerAnswer} {requestTime : Instant}
    (h : Course (recordSuccess b s a requestTime) A st) : LastCall (Recorded b s a) (visible A) st := by
  simp only [recordSuccess] at h
  split at h
  · next id hid =>
    have hc : Recorded b s a (.confirmLog id) := by simp [Recorded, hid]
    cases h with
    | rest => exact .before rfl
    | waiting => exact .asking hc rfl
    | crashed => exact .lost hc
    | call o h =>
      cases h with
      | rest => exact .back o hc nofun
      | ended => exact .back o hc nofun
  · next hid =>
    have hP : Recorded b s a = Entered b s (Logbook.succeeded a) := by
      funext c
      simp only [Recorded, hid]
    rw [hP]
    exact lastCall_of_log h

theorem failing_of_course {e : ServiceError} {requestTime : Instant}
    (h : Course ((Tracking.fail b.job).bind fun _ =>
      log b s (Logbook.failed e) requestTime fun id => .failed id e) A st) :
    Failing b s e (visible A) st := by
  have hlog {A : List Act} (h : Course (log b s (Logbook.failed e) requestTime fun id =>
      .failed id e) A st) := lastCall_of_log h
  cases h with
  | rest => exact .noting rfl
  | trip before h =>
    cases before with
    | true => exact .later (hlog h)
    | false =>
      cases h with
      | rest => exact .first rfl
      | waiting => exact .writing rfl
      | crashed => exact .lost
      | call o h => exact .written o (hlog h)

/-- **What a row may have done** after any part of its course. -/
theorem progress_of_course (h : Course (handle b s) A st) : Progress b s (visible A) st := by
  unfold handle at h
  cases hc : s.check with
  | some c =>
    rw [hc] at h
    cases h with
    | rest => exact .refused hc (.before rfl)
    | @clock _ A _ i h =>
      have hlog : LastCall (Entered b s (Logbook.invalid c.message)) (visible A) st :=
        lastCall_of_log h
      exact .refused hc hlog
  | none =>
    rw [hc] at h
    cases h with
    | rest => exact .unasked hc rfl
    | clock i h =>
      cases h with
      | rest => exact .unasked hc rfl
      | waiting => exact .asking hc rfl
      | crashed => exact .lost hc
      | call o h =>
        cases o with
        | ok a => exact .succeeded a hc (lastCall_of_recordSuccess h)
        | error e => exact .failed e hc (failing_of_course h)

/-! ## Counting a row's acts -/

theorem Failing.counts {e : ServiceError} (h : Failing b s e V st) :
    V.countP Act.isTrip ≤ 1 ∧ V.countP Act.isStatusWrite ≤ V.countP Act.isFirstTrip ∧
      V.countP Act.isAskError = 0 ∧
      (st.isOver = true → V.countP Act.isTrip = 1 ∧
        V.countP Act.isStatusWrite = V.countP Act.isFirstTrip) := by
  have hzero {V : List Act} (hl : LastCall (Entered b s (Logbook.failed e)) V st) {p : Act → Bool}
      (hp : Act.IgnoresLog p) : V.countP p = 0 := hl.countP_eq_zero (fun _ h => h.isLog) hp
  cases h with
  | noting hn => simp [hn]
  | first hn => simp [hn, List.countP_cons, Act.isTrip, Act.isStatusWrite, Act.isAskError]
  | writing hn =>
    simp [hn, List.countP_cons, Act.isTrip, Act.isFirstTrip, Act.isStatusWrite, Act.isAskError,
      Call.isStatusWrite]
  | lost =>
    simp [List.countP_cons, Act.isTrip, Act.isFirstTrip, Act.isStatusWrite, Act.isAskError,
      Call.isStatusWrite]
  | later hl =>
    simp only [List.countP_cons, hzero hl Act.ignoresLog_isTrip, hzero hl Act.ignoresLog_isFirstTrip,
      hzero hl Act.ignoresLog_isStatusWrite, hzero hl Act.ignoresLog_isAskError]
    simp [Act.isTrip, Act.isFirstTrip, Act.isStatusWrite, Act.isAskError]
  | written o hl =>
    simp only [List.countP_cons, hzero hl Act.ignoresLog_isTrip, hzero hl Act.ignoresLog_isFirstTrip,
      hzero hl Act.ignoresLog_isStatusWrite, hzero hl Act.ignoresLog_isAskError]
    simp [Act.isTrip, Act.isFirstTrip, Act.isStatusWrite, Act.isAskError, Call.isStatusWrite]

/-- A row sets the latch at most once for a failed product call, and writes to the job at most
where it was the first to set it. Once it is over, "at most" is "just". -/
theorem Progress.counts (h : Progress b s V st) :
    V.countP Act.isTrip ≤ V.countP Act.isAskError ∧
      V.countP Act.isStatusWrite ≤ V.countP Act.isFirstTrip ∧
      (st.isOver = true → V.countP Act.isTrip = V.countP Act.isAskError ∧
        V.countP Act.isStatusWrite = V.countP Act.isFirstTrip) := by
  cases h with
  | refused _ hl =>
    have hzero {p : Act → Bool} (hp : Act.IgnoresLog p) : V.countP p = 0 :=
      hl.countP_eq_zero (fun _ h => h.isLog) hp
    simp [-List.countP_eq_zero, hzero Act.ignoresLog_isTrip, hzero Act.ignoresLog_isFirstTrip,
      hzero Act.ignoresLog_isStatusWrite, hzero Act.ignoresLog_isAskError]
  | unasked => simp
  | asking => simp [Act.isTrip, Act.isFirstTrip, Act.isStatusWrite, Act.isAskError, Call.isStatusWrite]
  | lost => simp [Act.isTrip, Act.isFirstTrip, Act.isStatusWrite, Act.isAskError, Call.isStatusWrite]
  | @succeeded V _ a _ hl =>
    have hzero {p : Act → Bool} (hp : Act.IgnoresLog p) : V.countP p = 0 :=
      hl.countP_eq_zero (fun _ h => h.isLog) hp
    simp only [List.countP_cons, hzero Act.ignoresLog_isTrip, hzero Act.ignoresLog_isFirstTrip,
      hzero Act.ignoresLog_isStatusWrite, hzero Act.ignoresLog_isAskError]
    simp [Act.isTrip, Act.isFirstTrip, Act.isStatusWrite, Act.isAskError, Call.isStatusWrite]
  | failed e _ hf =>
    obtain ⟨htrip, hwrite, herr, hover⟩ := hf.counts
    simp only [List.countP_cons, herr]
    simp [Act.isTrip, Act.isFirstTrip, Act.isStatusWrite, Act.isAskError, Call.isStatusWrite]
    exact ⟨htrip, hwrite, hover⟩

theorem counts_of_course (h : Course (handle b s) A st) :
    A.countP Act.isTrip ≤ A.countP Act.isAskError ∧
      A.countP Act.isStatusWrite ≤ A.countP Act.isFirstTrip ∧
      (st.isOver = true → A.countP Act.isTrip = A.countP Act.isAskError ∧
        A.countP Act.isStatusWrite = A.countP Act.isFirstTrip) := by
  have hcounts := (progress_of_course h).counts
  simpa only [countP_visible (p := Act.isTrip) (fun _ => rfl) (fun _ => rfl),
    countP_visible (p := Act.isAskError) (fun _ => rfl) (fun _ => rfl),
    countP_visible (p := Act.isStatusWrite) (fun _ => rfl) (fun _ => rfl),
    countP_visible (p := Act.isFirstTrip) (fun _ => rfl) (fun _ => rfl)] using hcounts

theorem Failing.of_mem_callsOf {e : ServiceError} (h : Failing b s e V st) {c : Call}
    (hc : c ∈ callsOf V) : c = noteFailure b ∨ Entered b s (Logbook.failed e) c := by
  cases h with
  | noting => cases hc
  | first => cases hc
  | writing => exact .inl (List.mem_singleton.mp hc)
  | lost => exact .inl (List.mem_singleton.mp hc)
  | later hl => exact .inr (hl.of_mem_callsOf hc)
  | written o hl =>
    rcases List.mem_cons.mp hc with hc | hc
    · exact .inl hc
    · exact .inr (hl.of_mem_callsOf hc)

theorem Progress.mem_callsOf (h : Progress b s V st) {c : Call} (hc : c ∈ callsOf V) :
    c = ask b s ∨ c = noteFailure b ∨ c.isLog = true := by
  cases h with
  | refused _ hl => exact .inr (.inr (hl.of_mem_callsOf hc).isLog)
  | unasked => cases hc
  | asking => exact .inl (List.mem_singleton.mp hc)
  | lost => exact .inl (List.mem_singleton.mp hc)
  | succeeded a _ hl =>
    rcases List.mem_cons.mp hc with hc | hc
    · exact .inl hc
    · exact .inr (.inr (hl.of_mem_callsOf hc).isLog)
  | failed e _ hf =>
    rcases List.mem_cons.mp hc with hc | hc
    · exact .inl hc
    · exact .inr ((hf.of_mem_callsOf hc).imp_right Entered.isLog)

theorem Failing.of_answered_mem {e : ServiceError} (h : Failing b s e V st) {c : Call}
    {o : c.Outcome} (ho : .answered c o ∈ V) :
    c = noteFailure b ∨ Entered b s (Logbook.failed e) c := by
  cases h with
  | noting => cases ho
  | first => simp at ho
  | writing => simp at ho
  | lost => simp at ho
  | later hl => exact .inr (hl.of_answered_mem (by simpa using ho))
  | written o' hl =>
    simp only [List.mem_cons, reduceCtorEq, false_or] at ho
    rcases ho with ho | ho
    · cases ho
      exact .inl rfl
    · exact .inr (hl.of_answered_mem ho)

/-- A row whose product has answered is valid, and the answer is the second thing that others see
of it. -/
theorem Progress.answer_second (h : Progress b s V st) {o : (ask b s).Outcome}
    (ho : .answered (ask b s) o ∈ V) :
    s.check = none ∧ V[1]? = some (.answered (ask b s) o) := by
  have hnot {P : Call → Prop} {V : List Act} (hl : LastCall P V st)
      (hP : ∀ c, P c → c.isLog = true) : .answered (ask b s) o ∉ V := by
    intro ho
    cases hP _ (hl.of_answered_mem ho)
  cases h with
  | refused _ hl => exact absurd ho (hnot hl fun _ h => h.isLog)
  | unasked => cases ho
  | asking => simp at ho
  | lost => simp at ho
  | succeeded a hcheck hl =>
    simp only [List.mem_cons, reduceCtorEq, false_or] at ho
    rcases ho with ho | ho
    · exact ⟨hcheck, ho ▸ rfl⟩
    · exact absurd ho (hnot hl fun _ h => h.isLog)
  | failed e hcheck hf =>
    simp only [List.mem_cons, reduceCtorEq, false_or] at ho
    rcases ho with ho | ho
    · exact ⟨hcheck, ho ▸ rfl⟩
    · rcases hf.of_answered_mem ho with hc | hc
      · cases hc
      · cases hc.isLog

theorem Progress.answer_unique (h : Progress b s V st) {o o' : (ask b s).Outcome}
    (ho : .answered (ask b s) o ∈ V) (ho' : .answered (ask b s) o' ∈ V) : o = o' := by
  have hsame := (h.answer_second ho).2.symm.trans (h.answer_second ho').2
  simpa using hsame

/-- The log call `c` is the one that is due of a row that has done `V`. -/
inductive Due (b : Brief) (s : Submission) (V : List Act) (c : Call) : Prop where
  | refused {complaint} : s.check = some complaint →
      Entered b s (Logbook.invalid complaint.message) c → Due b s V c
  | failed {err} : s.check = none → .answered (ask b s) (.error err) ∈ V →
      Entered b s (Logbook.failed err) c → Due b s V c
  | succeeded {a} : s.check = none → .answered (ask b s) (.ok a) ∈ V → Recorded b s a c →
      Due b s V c

theorem Due.mono {V' : List Act} {c : Call} (h : Due b s V c) (hsub : ∀ a ∈ V, a ∈ V') :
    Due b s V' c := by
  cases h with
  | refused hcheck hc => exact .refused hcheck hc
  | failed hcheck ho hc => exact .failed hcheck (hsub _ ho) hc
  | succeeded hcheck ho hc => exact .succeeded hcheck (hsub _ ho) hc

/-- **A row logs what is due**, how far it may have come. -/
theorem Progress.due (h : Progress b s V st) {c : Call} (hc : c ∈ callsOf V)
    (hlog : c.isLog = true) : Due b s V c := by
  cases h with
  | refused hcheck hl => exact .refused hcheck (hl.of_mem_callsOf hc)
  | unasked => cases hc
  | asking =>
    cases List.mem_singleton.mp hc
    cases hlog
  | lost =>
    cases List.mem_singleton.mp hc
    cases hlog
  | succeeded a hcheck hl =>
    rcases List.mem_cons.mp hc with rfl | hc
    · cases hlog
    · exact .succeeded hcheck (by simp) (hl.of_mem_callsOf hc)
  | failed e hcheck hf =>
    rcases List.mem_cons.mp hc with rfl | hc
    · cases hlog
    · rcases hf.of_mem_callsOf hc with rfl | hentered
      · cases hlog
      · exact .failed hcheck (by simp) hentered

/-! ## Rows that come to their end -/

/-- What a row does to note its failure on the job: only the first failure is written. -/
inductive Noted (b : Brief) : List Act → Prop where
  | again : Noted b [.tripped true]
  | first (o : (noteFailure b).Outcome) :
      Noted b [.tripped false, .called (noteFailure b), .answered (noteFailure b) o]

/-- All that others see of a row that ends without a crash. -/
inductive Handled (b : Brief) (s : Submission) : List Act → Prop where
  /-- The submission is not valid: the product is not asked, and one entry says so. -/
  | refused {c e} (o : Except ServiceError Unit) : s.check = some c →
      e.Says b s (Logbook.invalid c.message) →
      Handled b s [.called (.writeLog e), .answered (.writeLog e) o]
  /-- The product call fails: the failure is noted, and one entry says so. -/
  | failed {N e} (err : ServiceError) (o : Except ServiceError Unit) : s.check = none → Noted b N →
      e.Says b s (Logbook.failed err) →
      Handled b s (.called (ask b s) :: .answered (ask b s) (.error err) :: N ++
        [.called (.writeLog e), .answered (.writeLog e) o])
  /-- The partner has an entry of its own, which is marked as a success. -/
  | confirmed {a} (o : Except ServiceError Unit) : s.check = none →
      b.product.logsOwnSuccess = false → a.transactionId ≠ "" →
      Handled b s [.called (ask b s), .answered (ask b s) (.ok (.catalog a)),
        .called (.confirmLog a.transactionId), .answered (.confirmLog a.transactionId) o]
  /-- The partner has no entry of its own: the desk writes one. -/
  | entered {a e} (o : Except ServiceError Unit) : s.check = none →
      b.product.logsOwnSuccess = true ∨ a.transactionId = none → e.Says b s (Logbook.succeeded a) →
      Handled b s [.called (ask b s), .answered (ask b s) (.ok a), .called (.writeLog e),
        .answered (.writeLog e) o]

theorem transactionId_eq_some {a : PartnerAnswer} {id : String} :
    a.transactionId = some id ↔ ∃ c, a = .catalog c ∧ c.transactionId = id ∧ id ≠ "" := by
  cases a with
  | scoring => simp [PartnerAnswer.transactionId]
  | catalog c =>
    by_cases hc : c.transactionId = ""
    · simp [PartnerAnswer.transactionId, hc]
    · simp [PartnerAnswer.transactionId, hc]
      grind

/-- **A row that is over without a crash has been handled.** -/
theorem handled_of_progress (h : Progress b s V st) (hover : st.isOver = true)
    (hst : st ≠ .crashed) : Handled b s V := by
  cases h with
  | refused hc hl =>
    obtain ⟨_, o, ⟨e, he, rfl⟩, rfl⟩ := hl.of_over hover hst
    exact .refused o hc he
  | unasked _ hn => rw [hn] at hover; cases hover
  | asking _ hn => rw [hn] at hover; cases hover
  | lost => exact absurd rfl hst
  | succeeded a hc hl =>
    obtain ⟨c, o, hr, rfl⟩ := hl.of_over hover hst
    unfold Recorded at hr
    split at hr
    · next id hid =>
      subst hr
      have hown : b.product.logsOwnSuccess = false := by
        cases hb : b.product.logsOwnSuccess with
        | true => rw [hb] at hid; cases hid
        | false => rfl
      rw [hown] at hid
      obtain ⟨a, rfl, rfl, hne⟩ := transactionId_eq_some.mp hid
      exact .confirmed o hc hown hne
    · next hid =>
      obtain ⟨e, he, rfl⟩ := hr
      refine .entered o hc ?_ he
      cases hb : b.product.logsOwnSuccess with
      | true => exact .inl rfl
      | false => rw [hb] at hid; exact .inr hid
  | failed err hc hf =>
    cases hf with
    | noting hn => rw [hn] at hover; cases hover
    | first hn => rw [hn] at hover; cases hover
    | writing hn => rw [hn] at hover; cases hover
    | lost => exact absurd rfl hst
    | later hl =>
      obtain ⟨_, o, ⟨e, he, rfl⟩, rfl⟩ := hl.of_over hover hst
      exact .failed err o hc .again he
    | written o' hl =>
      obtain ⟨_, o, ⟨e, he, rfl⟩, rfl⟩ := hl.of_over hover hst
      exact .failed err o hc (.first o') he

end Row

end Vetting
