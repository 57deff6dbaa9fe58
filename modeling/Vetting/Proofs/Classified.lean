import Vetting.Core.Account
import Vetting.Proofs.TextDecode
import Vetting.Service.Answer

/-! # How answers are classified

A service's answer is a status and a body. A status of failure is reported as a rejection whatever
the body is; below it, the answer is what the body decodes to. An envelope that tells of failure is
a rejection under every status, and carries what the body says went wrong. The envelope is decoded
as a whole before its verdict is looked at: a body that tells of failure and does not decode counts
as a body without a verdict. -/

namespace Vetting

/-! ## Fields of flags and texts -/

namespace Wire.Fields

variable {missing : Missing} {b : Bool} {m : String} {j? : Option Json}

theorem Holds.of_flag {v : Wire.flag.Val} (h : Holds Wire.flag missing j? v)
    (hj : j? = some (.bool b)) : v = b := by
  subst hj
  cases h with
  | present hj =>
    cases hj
    rfl

theorem Holds.of_text {v : Wire.text.Val} (h : Holds Wire.text missing j? v)
    (hj : j? = some (.str m)) : v = m := by
  subst hj
  cases h with
  | present hj =>
    cases hj
    rfl

/-- A text that may be missing is there where the member is a text, and only there. -/
theorem Holds.option_text {v : (Shape.option Wire.text).Val}
    (h : Holds (.option Wire.text) missing j? v) : v = some m ↔ j? = some (.str m) := by
  cases h with
  | absent habsent =>
    cases habsent
    simp
  | @present j _ hj =>
    cases j with
    | null =>
      cases hj
      simp
    | str m' =>
      cases hj
      exact ⟨fun heq => by cases heq; rfl, fun heq => by cases heq; rfl⟩
    | bool | num | arr | obj => cases hj

end Wire.Fields

namespace Envelope

open Text (Bytes)
open Wire

/-! ## What a body says -/

/-- Whether a body tells of success. -/
def verdict? (j : Json) : Option Bool := (j.member? "success").bind Json.bool?

theorem verdict?_eq_some {b : Bool} {j : Json} :
    verdict? j = some b ↔ j.member? "success" = some (.bool b) := by
  constructor
  · intro h
    obtain ⟨j', hj', h⟩ := Option.bind_eq_some_iff.mp h
    cases j' with
    | bool b' =>
      cases h
      exact hj'
    | null | num | str | arr | obj => cases h
  · intro h
    simp [verdict?, h, Json.bool?]

/-- The text of a member, where it is a text that says something. -/
def saidIn? (key : String) (j : Json) : Option String :=
  ((j.member? key).bind Json.str?).filter fun m => m ≠ ""

theorem saidIn?_eq_some {key m : String} {j : Json} :
    saidIn? key j = some m ↔ j.member? key = some (.str m) ∧ m ≠ "" := by
  constructor
  · intro h
    obtain ⟨h, hm⟩ := Option.filter_eq_some_iff.mp h
    obtain ⟨j', hj', h⟩ := Option.bind_eq_some_iff.mp h
    cases j' with
    | str m' =>
      cases h
      exact ⟨hj', by simpa using hm⟩
    | null | bool | num | arr | obj => cases h
  · rintro ⟨h, hm⟩
    simp [saidIn?, h, Json.str?, hm]

/-- What went wrong, as a body of the scoring service says it. -/
def scoringSaid? (j : Json) : Option String :=
  (saidIn? "error_message" j).or (saidIn? "message" j)

theorem obj_of_member? {key : String} {j v : Json} (h : j.member? key = some v) :
    ∃ ms, j = .obj ms := by
  cases j with
  | obj ms => exact ⟨ms, rfl⟩
  | null | bool | num | str | arr => cases h

section Scoring

variable {success : Bool} {data : Option Json} {plain m : String} {error : Option String}
  {status : UInt16}

theorem message_error (h : error = some m) (hne : m ≠ "") :
    (⟨success, data, plain, error, status⟩ : ScoringAnswer).message = m := by
  simp [ScoringAnswer.message, h, hne]

theorem message_plain (h : ∀ m, error = some m → m = "") :
    (⟨success, data, plain, error, status⟩ : ScoringAnswer).message = plain := by
  cases error with
  | none => rfl
  | some m => simp [ScoringAnswer.message, h m rfl]

end Scoring

theorem ok_of_ofText {ε : Type} [Form ε] {body : Bytes} {e : ε} (h : Form.ofText ε body = .ok e) :
    ∃ v, (Form.shape ε).ofText body = .ok v ∧ Form.ofVal v = e := by
  unfold Form.ofText at h
  cases hv : (Form.shape ε).ofText body with
  | error => simp [hv, Except.map] at h
  | ok v =>
    simp only [hv, Except.map] at h
    cases h
    exact ⟨v, rfl, rfl⟩

/-- How an envelope stands to the body that it was decoded from, where a body says `said?` went
wrong. -/
structure Speaks (ε : Type) [Envelope ε] (said? : Json → Option String) : Prop where
  bracketed {body : Bytes} {e : ε} : Form.ofText ε body = .ok e → 0x5B ∈ body ∨ 0x7B ∈ body
  reads {body : Bytes} {e : ε} {ms : List (String × Json)} : Form.ofText ε body = .ok e →
    Json.Reader.value body = .ok (.obj ms) →
    (∀ b, verdict? (.obj ms) = some b → succeeded e = b) ∧
      ∀ m, said? (.obj ms) = some m → message e = m ∧ m ≠ ""

theorem core_speaks (α : Type) [Form α] : Speaks (CoreAnswer α) (saidIn? "message") where
  bracketed h := by
    obtain ⟨v, hv, _⟩ := ok_of_ofText h
    exact Shape.mem_of_ofText hv
  reads h hvalue := by
    obtain ⟨⟨success, data, message, more⟩, hv, rfl⟩ := ok_of_ofText h
    obtain ⟨hsuccess, _, hmessage, _⟩ :=
      Fields.allHold_of_ofText (by simp [Fields.Plain, Fields.names]) hv hvalue
    refine ⟨fun b hb => hsuccess.of_flag (verdict?_eq_some.mp hb), fun m hsaid => ?_⟩
    obtain ⟨hm, hne⟩ := saidIn?_eq_some.mp hsaid
    exact ⟨hmessage.of_text hm, hne⟩

theorem catalog_speaks : Speaks CatalogAnswer (saidIn? "message") where
  bracketed h := by
    obtain ⟨v, hv, _⟩ := ok_of_ofText h
    exact Shape.mem_of_ofText hv
  reads h hvalue := by
    obtain ⟨⟨success, data, input, message, more⟩, hv, rfl⟩ := ok_of_ofText h
    obtain ⟨hsuccess, _, _, hmessage, _⟩ :=
      Fields.allHold_of_ofText (by simp [Fields.Plain, Fields.names]) hv hvalue
    refine ⟨fun b hb => hsuccess.of_flag (verdict?_eq_some.mp hb), fun m hsaid => ?_⟩
    obtain ⟨hm, hne⟩ := saidIn?_eq_some.mp hsaid
    exact ⟨hmessage.of_text hm, hne⟩

theorem scoring_speaks : Speaks ScoringAnswer scoringSaid? where
  bracketed h := by
    obtain ⟨v, hv, _⟩ := ok_of_ofText h
    exact Shape.mem_of_ofText hv
  reads h hvalue := by
    obtain ⟨⟨success, data, plain, error, _⟩, hv, rfl⟩ := ok_of_ofText h
    obtain ⟨hsuccess, _, hplain, herror, _⟩ :=
      Fields.allHold_of_ofText (by simp [Fields.Plain, Fields.names]) hv hvalue
    refine ⟨fun b hb => hsuccess.of_flag (verdict?_eq_some.mp hb), fun m hsaid => ?_⟩
    rcases Option.or_eq_some_iff.mp hsaid with hsaid | ⟨hnone, hsaid⟩
    · obtain ⟨hm, hne⟩ := saidIn?_eq_some.mp hsaid
      exact ⟨message_error (herror.option_text.mpr hm) hne, hne⟩
    · obtain ⟨hm, hne⟩ := saidIn?_eq_some.mp hsaid
      have hempty : ∀ m', error = some m' → m' = "" := by
        intro m' hm'
        by_cases hne' : m' = ""
        · exact hne'
        · cases hnone.symm.trans (saidIn?_eq_some.mpr ⟨herror.option_text.mp hm', hne'⟩)
      exact ⟨(message_plain hempty).trans (hplain.of_text hm), hne⟩

/-! ## The classification -/

/-- How an answer with this status and this body is classified. -/
structure Classified (ε : Type) [Envelope ε] (said? : Json → Option String) (status : UInt16)
    (body : Bytes) : Prop where
  /-- A status of failure is reported, whatever the body is. -/
  failing : 400 ≤ status → ∃ r, parse ε status body = .error (.rejected r) ∧ r.status = status
  /-- An envelope that tells of failure is reported under every status, with what the body says. -/
  refused : ∀ e j m, Form.ofText ε body = .ok e → Json.Reader.value body = .ok j →
    verdict? j = some false → said? j = some m →
    ∃ r, parse ε status body = .error (.rejected r) ∧ r.status = status ∧ r.message = m
  /-- The report has the message of the envelope, or the phrase of the status where that is
  empty. -/
  rejected : ∀ e, Form.ofText ε body = .ok e → 400 ≤ status ∨ succeeded e = false →
    ∃ r, parse ε status body = .error (.rejected r) ∧ r.status = status ∧
      r.message = if message e = "" then fallbackMessage status else message e
  /-- An envelope that tells of success is the answer. -/
  answered : ∀ e, status < 400 → Form.ofText ε body = .ok e → succeeded e = true →
    parse ε status body = .ok (withStatus status e)
  /-- What does not decode is reported under a status of failure, without what the body says. -/
  mute : 400 ≤ status → (∀ e, Form.ofText ε body ≠ .ok e) →
    parse ε status body = .error (.rejected ⟨status, fallbackMessage status, none⟩)
  /-- Only what does not decode is undecodable, and only below the statuses of failure. -/
  undecodable : (∃ detail, parse ε status body = .error (.undecodable detail)) ↔
    status < 400 ∧ ∀ e, Form.ofText ε body ≠ .ok e

variable {ε : Type} [Envelope ε] {said? : Json → Option String} {status : UInt16} {body : Bytes}
  {e : ε}

theorem isFailure_eq_true : isFailure status = true ↔ 400 ≤ status := by simp [isFailure]

theorem isFailure_eq_false : isFailure status = false ↔ status < 400 := by simp [isFailure]

theorem not_blank (h : 0x5B ∈ body ∨ 0x7B ∈ body) : body.all isAsciiBlank = false := by
  rcases h with h | h <;> exact List.all_eq_false.mpr ⟨_, h, by decide⟩

theorem parse_of_decoded (hspeaks : Speaks ε said?) (h : Form.ofText ε body = .ok e) :
    parse ε status body =
      if isFailure status || !succeeded e then .error (.rejected (rejection status body e))
      else .ok (withStatus status e) := by
  unfold parse
  rw [not_blank (hspeaks.bracketed h), h]
  rfl

theorem parse_of_undecoded (status : UInt16) (h : ∀ e, Form.ofText ε body ≠ .ok e) :
    ∃ detail, parse ε status body =
      if isFailure status then .error (.rejected ⟨status, fallbackMessage status, none⟩)
      else .error (.undecodable detail) := by
  unfold parse
  split
  · exact ⟨_, rfl⟩
  · split
    · exact ⟨_, rfl⟩
    · next e he => exact absurd he (h e)

theorem parse_rejected (hspeaks : Speaks ε said?) (h : Form.ofText ε body = .ok e)
    (hbad : 400 ≤ status ∨ succeeded e = false) :
    parse ε status body = .error (.rejected (rejection status body e)) := by
  rw [parse_of_decoded hspeaks h, if_pos]
  rcases hbad with hbad | hbad
  · simp [isFailure_eq_true.mpr hbad]
  · simp [hbad]

theorem parse_answered (hspeaks : Speaks ε said?) (h : Form.ofText ε body = .ok e)
    (hstatus : status < 400) (hgood : succeeded e = true) :
    parse ε status body = .ok (withStatus status e) := by
  rw [parse_of_decoded hspeaks h, isFailure_eq_false.mpr hstatus, hgood]
  rfl

theorem parse_mute (hstatus : 400 ≤ status) (h : ∀ e, Form.ofText ε body ≠ .ok e) :
    parse ε status body = .error (.rejected ⟨status, fallbackMessage status, none⟩) := by
  obtain ⟨detail, hparse⟩ := parse_of_undecoded status h
  rwa [isFailure_eq_true.mpr hstatus] at hparse

theorem parse_undecodable (hstatus : status < 400) (h : ∀ e, Form.ofText ε body ≠ .ok e) :
    ∃ detail, parse ε status body = .error (.undecodable detail) := by
  obtain ⟨detail, hparse⟩ := parse_of_undecoded status h
  rw [isFailure_eq_false.mpr hstatus] at hparse
  exact ⟨detail, hparse⟩

/-- Envelopes that carry what their bodies say are classified by it. -/
theorem classified (hspeaks : Speaks ε said?) (status : UInt16) (body : Bytes) :
    Classified ε said? status body where
  failing hstatus := by
    by_cases hdecodes : ∃ e, Form.ofText ε body = .ok e
    · obtain ⟨e, he⟩ := hdecodes
      exact ⟨_, parse_rejected hspeaks he (.inl hstatus), rfl⟩
    · exact ⟨_, parse_mute hstatus (not_exists.mp hdecodes), rfl⟩
  refused e j m he hvalue hsuccess hsaid := by
    obtain ⟨ms, rfl⟩ := obj_of_member? (verdict?_eq_some.mp hsuccess)
    obtain ⟨hverdict, hsays⟩ := hspeaks.reads he hvalue
    obtain ⟨hm, hne⟩ := hsays m hsaid
    exact ⟨_, parse_rejected hspeaks he (.inr (hverdict false hsuccess)), rfl,
      by simp [rejection, hm, hne]⟩
  rejected e he hbad := ⟨_, parse_rejected hspeaks he hbad, rfl, by simp [rejection]⟩
  answered e hstatus he hgood := parse_answered hspeaks he hstatus hgood
  mute hstatus hnone := parse_mute hstatus hnone
  undecodable := by
    refine ⟨fun ⟨detail, hparse⟩ => ?_, fun ⟨hstatus, hnone⟩ => parse_undecodable hstatus hnone⟩
    by_cases hdecodes : ∃ e, Form.ofText ε body = .ok e
    · obtain ⟨e, he⟩ := hdecodes
      by_cases hbad : 400 ≤ status ∨ succeeded e = false
      · cases hparse.symm.trans (parse_rejected hspeaks he hbad)
      · obtain ⟨hstatus, hgood⟩ := not_or.mp hbad
        cases hparse.symm.trans
          (parse_answered hspeaks he (UInt16.not_le.mp hstatus) (by simpa using hgood))
    · refine ⟨UInt16.not_le.mp fun hstatus => ?_, not_exists.mp hdecodes⟩
      cases hparse.symm.trans (parse_mute hstatus (not_exists.mp hdecodes))

/-- **Every answer is classified so**, whichever service it comes from and whatever it carries. -/
theorem answers_classified (status : UInt16) (body : Bytes) :
    (∀ (α : Type) [Form α], Classified (CoreAnswer α) (saidIn? "message") status body) ∧
      Classified CatalogAnswer (saidIn? "message") status body ∧
      Classified ScoringAnswer scoringSaid? status body :=
  ⟨fun α _ => classified (core_speaks α) status body, classified catalog_speaks status body,
    classified scoring_speaks status body⟩

/-- Runs a body for what it says, where it tells of failure. -/
theorem value_of_run {m : String} (h : (Json.Reader.value body).toOption.any
    (fun j => verdict? j == some false && said? j == some m) = true) :
    ∃ j, Json.Reader.value body = .ok j ∧ verdict? j = some false ∧ said? j = some m := by
  cases hvalue : Json.Reader.value body with
  | error => simp [hvalue, Except.toOption] at h
  | ok j => exact ⟨j, rfl, by simpa [hvalue, Except.toOption] using h⟩

/-- An answer of the scoring service with both messages. -/
def refusedLoan : Bytes := Text.utf8
  "\x7b\"success\":false,\"message\":\"failed\",\"error_message\":\"loan_no is required\"\x7d"

theorem refused_loan_told : ∃ r, parse ScoringAnswer 200 refusedLoan = .error (.rejected r) ∧
    r.status = 200 ∧ r.message = "loan_no is required" := by
  have hdecodes : (Form.ofText ScoringAnswer refusedLoan).isOk = true := by decide +kernel
  obtain ⟨j, hvalue, hverdict, hsaid⟩ : ∃ j, Json.Reader.value refusedLoan = .ok j ∧
      verdict? j = some false ∧ scoringSaid? j = some "loan_no is required" :=
    value_of_run (by decide +kernel)
  cases h : Form.ofText ScoringAnswer refusedLoan with
  | error f => simp [h, Except.isOk, Except.toBool] at hdecodes
  | ok e => exact (answers_classified 200 refusedLoan).2.2.refused e j _ h hvalue hverdict hsaid

/-- A body that tells of failure, with a text where a quota is expected. -/
def strayQuota : Bytes := Text.utf8
  "\x7b\"success\":false,\"data\":\"none\",\"message\":\"quota not found\"\x7d"

/-- The verdict of a body whose payload does not decode is not looked at. -/
theorem stray_quota_undecodable :
    ∃ j detail, Json.Reader.value strayQuota = .ok j ∧ verdict? j = some false ∧
      saidIn? "message" j = some "quota not found" ∧
      parse (CoreAnswer Quota) 200 strayQuota = .error (.undecodable detail) := by
  have hdecodes : (Form.ofText (CoreAnswer Quota) strayQuota).isOk = false := by decide +kernel
  obtain ⟨detail, hparse⟩ : ∃ detail,
      parse (CoreAnswer Quota) 200 strayQuota = .error (.undecodable detail) := by
    refine parse_undecodable (by decide) fun e he => ?_
    simp [he, Except.isOk, Except.toBool] at hdecodes
  obtain ⟨j, hvalue, hverdict, hsaid⟩ : ∃ j, Json.Reader.value strayQuota = .ok j ∧
      verdict? j = some false ∧ saidIn? "message" j = some "quota not found" :=
    value_of_run (by decide +kernel)
  exact ⟨j, detail, hvalue, hverdict, hsaid, hparse⟩

end Envelope

end Vetting
