import Vetting.Proofs.Classified
import Vetting.Proofs.RowsLogged
import Vetting.Service.Client

/-! # What is kept of a failed product call

A row whose product call fails writes an entry of its own. The entry tells what the partner said, or
the phrase of its status where it said nothing, and of the catalog's partners it keeps the whole
body that was received. Whether there is a body to keep and whether it speaks for the partner are
different questions: a body is decoded as an envelope without a look at the members that it does not
need, and kept only if it is a JSON value to the last of them. -/

namespace Vetting

open Text (Bytes)
open Wire

/-- What a partner said, or the phrase of its status where that is nothing. -/
def orPhrase (status : UInt16) (said : String) : String :=
  if said = "" then Envelope.fallbackMessage status else said

/-- What the entry `e` keeps of a body that a partner of the catalog rejected a call with. -/
structure CatalogEvidence (status : UInt16) (body : Bytes) (e : LogEntry) : Prop where
  /-- An envelope speaks for the partner. -/
  message : ∀ a, Form.ofText CatalogAnswer body = .ok a → e.message = orPhrase status a.message
  /-- If it is a JSON value, that is kept as it is. -/
  kept : ∀ a j, Form.ofText CatalogAnswer body = .ok a → Json.Reader.value body = .ok j →
    e.output = some j ∧ e.data = j.member? "data"
  /-- If it is none, there is nothing to keep. -/
  spoiled : ∀ a f, Form.ofText CatalogAnswer body = .ok a → Json.Reader.value body = .error f →
    e.output = none ∧ e.data = none
  /-- A body that is no envelope counts as none. -/
  mute : (∀ a, Form.ofText CatalogAnswer body ≠ .ok a) →
    e.message = Envelope.fallbackMessage status ∧ e.output = none ∧ e.data = none

/-- What the entry `e` keeps of a body that the scoring service rejected a call with. -/
structure ScoringEvidence (status : UInt16) (body : Bytes) (e : LogEntry) : Prop where
  /-- Nothing of the body is kept. -/
  bare : e.output = none ∧ e.data = none
  /-- The error message is told if it says something. -/
  error_message : ∀ a m, Form.ofText ScoringAnswer body = .ok a → a.errorMessage = some m →
    m ≠ "" → e.message = m
  /-- Without an error message that says something the plain one is told, or the phrase of the
  status. -/
  plain_message : ∀ a, Form.ofText ScoringAnswer body = .ok a →
    (∀ m, a.errorMessage = some m → m = "") → e.message = orPhrase status a.plainMessage
  mute : (∀ a, Form.ofText ScoringAnswer body ≠ .ok a) →
    e.message = Envelope.fallbackMessage status

/-- The entry `e` records that the product call of a row with the submission `s` failed with
`err`. -/
structure FailureEvidence (b : Brief) (s : Submission) (err : ServiceError) (e : LogEntry) :
    Prop where
  status : e.status = 502
  success : e.success = false
  input : e.input = s.toJson
  /-- A partner of the catalog answered, and reported failure. -/
  catalog : ∀ path status body r, b.product.route = .catalog path → err = .rejected r →
    Client.read status body (Row.ask b s) = .error err → CatalogEvidence status body e
  /-- The scoring service answered, and reported failure. -/
  scoring : ∀ path status body r, b.product.route = .scoring path → err = .rejected r →
    Client.read status body (Row.ask b s) = .error err → ScoringEvidence status body e
  /-- There was no answer, or none that could be decoded. -/
  unanswered : (∀ r, err ≠ .rejected r) →
    e.message = err.message ∧ e.output = none ∧ e.data = none

namespace Envelope

variable {status : UInt16} {body : Bytes} {r : Rejection}

/-- A rejection is an envelope's, or tells of a body that is none. -/
theorem rejection_cases {ε : Type} [Envelope ε] {said? : Json → Option String}
    (hspeaks : Speaks ε said?) (h : parse ε status body = .error (.rejected r)) :
    (∃ e, Form.ofText ε body = .ok e ∧ r = rejection status body e) ∨
      (∀ e, Form.ofText ε body ≠ .ok e) ∧ r = ⟨status, fallbackMessage status, none⟩ := by
  by_cases hdecodes : ∃ e, Form.ofText ε body = .ok e
  · obtain ⟨e, he⟩ := hdecodes
    rw [parse_of_decoded hspeaks he] at h
    split at h
    · cases h
      exact .inl ⟨e, he, rfl⟩
    · cases h
  · have hnone := not_exists.mp hdecodes
    obtain ⟨detail, hparse⟩ := parse_of_undecoded status hnone
    rw [hparse] at h
    split at h
    · cases h
      exact .inr ⟨hnone, rfl⟩
    · cases h

theorem message_rejection {ε : Type} [Envelope ε] (status : UInt16) (body : Bytes) (e : ε) :
    (rejection status body e).message = orPhrase status (message e) := by
  simp [rejection, orPhrase]

end Envelope

variable {b : Brief} {s : Submission} {err : ServiceError} {e : LogEntry} {status : UInt16}
  {body : Bytes} {r : Rejection}

theorem LogEntry.Says.of_rejected (h : e.Says b s (Logbook.failed (.rejected r))) :
    e.message = r.message ∧ e.output = r.body ∧ e.data = r.body.bind (·.member? "data") := by
  obtain ⟨_, _, _, rfl⟩ := h
  exact ⟨rfl, rfl, rfl⟩

theorem error_of_map {ε α β : Type} {f : α → β} {x : Except ε α} {err : ε}
    (h : x.map f = .error err) : x = .error err := by
  cases x with
  | error e =>
    cases h
    rfl
  | ok a => cases h

theorem Client.parse_of_catalog {route : Route} {path : String} {caller : Caller} {input : Json}
    (hroute : route = .catalog path)
    (h : read status body (.ask route caller input) = .error err) :
    Envelope.parse CatalogAnswer status body = .error err := by
  subst hroute
  exact error_of_map h

theorem Client.parse_of_scoring {route : Route} {path : String} {caller : Caller} {input : Json}
    (hroute : route = .scoring path)
    (h : read status body (.ask route caller input) = .error err) :
    Envelope.parse ScoringAnswer status body = .error err := by
  subst hroute
  exact error_of_map h

/-- **What is kept of a body from the catalog.** -/
theorem catalogEvidence (hentry : e.Says b s (Logbook.failed (.rejected r)))
    (hparse : Envelope.parse CatalogAnswer status body = .error (.rejected r)) :
    CatalogEvidence status body e := by
  obtain ⟨hmessage, houtput, hdata⟩ := hentry.of_rejected
  rcases Envelope.rejection_cases Envelope.catalog_speaks hparse with ⟨a, ha, rfl⟩ | ⟨hnone, rfl⟩
  · have hsame {a' : CatalogAnswer} (ha' : Form.ofText CatalogAnswer body = .ok a') : a' = a := by
      cases ha.symm.trans ha'
      rfl
    have hbody : (Envelope.rejection status body a).body =
        (Json.Reader.value body).toOption := rfl
    rw [hbody] at houtput hdata
    rw [Envelope.message_rejection] at hmessage
    refine ⟨?_, ?_, ?_, fun hmute => absurd ha (hmute a)⟩
    · intro a' ha'
      rw [hsame ha']
      exact hmessage
    · intro a' j _ hj
      rw [hj] at houtput hdata
      exact ⟨houtput, hdata⟩
    · intro a' f _ hf
      rw [hf] at houtput hdata
      exact ⟨houtput, hdata⟩
  · exact ⟨fun a ha => absurd ha (hnone a), fun a _ ha => absurd ha (hnone a),
      fun a _ ha => absurd ha (hnone a), fun _ => ⟨hmessage, houtput, hdata⟩⟩

/-- **What is kept of a body from the scoring service.** -/
theorem scoringEvidence (hentry : e.Says b s (Logbook.failed (.rejected r)))
    (hparse : Envelope.parse ScoringAnswer status body = .error (.rejected r)) :
    ScoringEvidence status body e := by
  obtain ⟨hmessage, houtput, hdata⟩ := hentry.of_rejected
  rcases Envelope.rejection_cases Envelope.scoring_speaks hparse with ⟨a, ha, rfl⟩ | ⟨hnone, rfl⟩
  · have hsame {a' : ScoringAnswer} (ha' : Form.ofText ScoringAnswer body = .ok a') : a' = a := by
      cases ha.symm.trans ha'
      rfl
    rw [Envelope.message_rejection] at hmessage
    refine ⟨⟨houtput, hdata⟩, ?_, ?_, fun hmute => absurd ha (hmute a)⟩
    · intro a' m ha' hm hne
      rw [hsame ha'] at hm
      have htold : Envelope.message a = m := Envelope.message_error hm hne
      rw [hmessage, htold, orPhrase, if_neg hne]
    · intro a' ha' hsilent
      rw [hsame ha'] at hsilent ⊢
      have htold : Envelope.message a = a.plainMessage := Envelope.message_plain hsilent
      rw [hmessage, htold]
  · exact ⟨⟨houtput, hdata⟩, fun a _ ha => absurd ha (hnone a), fun a ha => absurd ha (hnone a),
      fun _ => hmessage⟩

theorem failureEvidence (h : e.Says b s (Logbook.failed err)) : FailureEvidence b s err e where
  status := h.status_eq.1.trans (Row.failed_status err).1
  success := h.status_eq.2.trans (Row.failed_status err).2
  input := by
    obtain ⟨_, _, _, rfl⟩ := h
    rfl
  catalog path status body r hroute herr hread := by
    subst herr
    exact catalogEvidence h (Client.parse_of_catalog hroute hread)
  scoring path status body r hroute herr hread := by
    subst herr
    exact scoringEvidence h (Client.parse_of_scoring hroute hread)
  unanswered hne := by
    obtain ⟨_, _, _, rfl⟩ := h
    cases err with
    | rejected r => exact absurd rfl (hne r)
    | unreachable | timedOut | undecodable | badAddress => exact ⟨rfl, rfl, rfl⟩

/-- **Failed product calls are recorded with the evidence received.** A row whose product call
failed writes no other log entries than such as keep the evidence, and when it has come to its end
it has written one. -/
theorem failed_call_recorded {A : List Act} {st : Strand Row.Result}
    (h : Course (Row.handle b s) A st) (hfailed : .answered (Row.ask b s) (.error err) ∈ A) :
    (∀ c ∈ callsOf A, c.isLog = true → ∃ e, c = .writeLog e ∧ FailureEvidence b s err e) ∧
    (st.isOver = true → st ≠ .crashed → (callsOf A).countP Call.isLog = 1) := by
  have hprogress := Row.progress_of_course h
  have hseen : .answered (Row.ask b s) (.error err) ∈ visible A := (mem_visible rfl).mpr hfailed
  constructor
  · intro c hc hlog
    rw [← callsOf_visible] at hc
    cases hprogress.due hc hlog with
    | refused hcheck => cases hcheck.symm.trans (hprogress.answer_second hseen).1
    | failed _ hother hentered =>
      cases hprogress.answer_unique hseen hother
      obtain ⟨e, hentry, rfl⟩ := hentered
      exact ⟨e, rfl, failureEvidence hentry⟩
    | succeeded _ hother _ => cases hprogress.answer_unique hseen hother
  · intro hover hst
    exact (Row.logged_of_handled (Row.handled_of_progress hprogress hover hst)).countP_isLog

/-- The product call of a valid row may fail in any way, and the row goes on to log it. -/
theorem course_of_failed (b : Brief) (hcheck : s.check = none) (err : ServiceError) :
    ∃ A st e, Course (Row.handle b s) A st ∧ .answered (Row.ask b s) (.error err) ∈ A ∧
      .writeLog e ∈ callsOf A ∧ e.Says b s (Logbook.failed err) := by
  unfold Row.handle
  rw [hcheck]
  exact ⟨_, _, _, .clock default (.call (.error err) (.trip true (.fresh 1 (.clock default
    (.clock default (.waiting _ _)))))), by simp, List.mem_cons_of_mem _ List.mem_cons_self,
    ⟨_, _, _, rfl⟩⟩

def phoneRow : Submission := ⟨.phoneLiveStatus, ["081234567890"]⟩

def phoneBrief : Brief := ⟨.phoneLiveStatus, 1, 1, 5, 9, 4, 2, "key-1"⟩

theorem check_phoneRow : phoneRow.check = none := by decide +kernel

/-- A body from the catalog with a member that no envelope has. -/
def unknownNumber : Bytes := Text.utf8
  "\x7b\"success\":false,\"data\":null,\"message\":\"unknown number\",\"trace\":7\x7d"

/-- Runs a body for the message of its envelope. -/
theorem catalogAnswer_of_run {m : String} (h : (Form.ofText CatalogAnswer body).toOption.any
    (fun a => !a.success && a.message == m) = true) :
    ∃ a, Form.ofText CatalogAnswer body = .ok a ∧ a.success = false ∧ a.message = m := by
  cases hdecodes : Form.ofText CatalogAnswer body with
  | error => simp [hdecodes, Except.toOption] at h
  | ok a => exact ⟨a, rfl, by simpa [hdecodes, Except.toOption] using h⟩

theorem read_rejected {a : CatalogAnswer} (ha : Form.ofText CatalogAnswer body = .ok a)
    (hfailed : a.success = false) (status : UInt16) :
    Client.read status body (Row.ask phoneBrief phoneRow) =
      .error (.rejected (Envelope.rejection status body a)) := by
  have hparse : Envelope.parse CatalogAnswer status body = _ :=
    Envelope.parse_rejected Envelope.catalog_speaks ha (.inr hfailed)
  show (Envelope.parse CatalogAnswer status body).map _ = _
  rw [hparse]
  rfl

theorem unknown_number_recorded : ∃ A st err e j,
    Course (Row.handle phoneBrief phoneRow) A st ∧
    .answered (Row.ask phoneBrief phoneRow) (.error err) ∈ A ∧
    Client.read 422 unknownNumber (Row.ask phoneBrief phoneRow) = .error err ∧
    .writeLog e ∈ callsOf A ∧ Json.Reader.value unknownNumber = .ok j ∧
    (j.member? "trace").isSome ∧ e.output = some j ∧ e.message = "unknown number" := by
  obtain ⟨a, ha, hfailed, hmessage⟩ : ∃ a, Form.ofText CatalogAnswer unknownNumber = .ok a ∧
      a.success = false ∧ a.message = "unknown number" := catalogAnswer_of_run (by decide +kernel)
  have hvalue : (Json.Reader.value unknownNumber).toOption.any
      (fun j => (j.member? "trace").isSome) = true := by decide +kernel
  cases hj : Json.Reader.value unknownNumber with
  | error f => simp [hj, Except.toOption] at hvalue
  | ok j =>
    have hread := read_rejected ha hfailed 422
    obtain ⟨A, st, e, hcourse, hanswered, hwritten, -⟩ :=
      course_of_failed phoneBrief check_phoneRow
        (.rejected (Envelope.rejection 422 unknownNumber a))
    obtain ⟨e', heq, hevidence⟩ := (failed_call_recorded hcourse hanswered).1 _ hwritten rfl
    cases heq
    have hcatalog := hevidence.catalog _ 422 unknownNumber _ rfl rfl hread
    refine ⟨A, st, _, e, j, hcourse, hanswered, hread, hwritten, rfl, ?_, ?_, ?_⟩
    · simpa [hj, Except.toOption] using hvalue
    · exact (hcatalog.kept a j ha hj).1
    · rw [hcatalog.message a ha, hmessage]
      rfl

/-- A body from the catalog that is an envelope and no JSON value: its last number is too large. -/
def tooLarge : Bytes := Text.utf8
  "\x7b\"success\":false,\"message\":\"upstream down\",\"trace\":1e400\x7d"

/-- The message of an envelope is told even if its body is no JSON value. -/
theorem told_without_value : ∃ A st err e,
    Course (Row.handle phoneBrief phoneRow) A st ∧
    .answered (Row.ask phoneBrief phoneRow) (.error err) ∈ A ∧
    Client.read 400 tooLarge (Row.ask phoneBrief phoneRow) = .error err ∧
    .writeLog e ∈ callsOf A ∧ (∀ j, Json.Reader.value tooLarge ≠ .ok j) ∧
    e.message = "upstream down" ∧ Envelope.fallbackMessage 400 = "Bad Request" := by
  obtain ⟨a, ha, hfailed, hmessage⟩ : ∃ a, Form.ofText CatalogAnswer tooLarge = .ok a ∧
      a.success = false ∧ a.message = "upstream down" := catalogAnswer_of_run (by decide +kernel)
  have hvalue : (Json.Reader.value tooLarge).toOption.isNone = true := by decide +kernel
  obtain ⟨A, st, e, hcourse, hanswered, hwritten, hentry⟩ :=
    course_of_failed phoneBrief check_phoneRow
      (.rejected (Envelope.rejection 400 tooLarge a))
  refine ⟨A, st, _, e, hcourse, hanswered, read_rejected ha hfailed 400, hwritten, ?_, ?_, rfl⟩
  · intro j hj
    simp [hj, Except.toOption] at hvalue
  · rw [hentry.of_rejected.1, Envelope.message_rejection]
    show orPhrase 400 a.message = _
    rw [hmessage]
    rfl

end Vetting
