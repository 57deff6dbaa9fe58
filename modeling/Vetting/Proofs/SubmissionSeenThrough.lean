import Vetting.Proofs.Confined
import Vetting.Proofs.JobSeenThrough

/-! # Single submissions are seen through

A job is created for a single submission just if the submission is admitted, and nothing is asked or
written for it before. A job that has been created is seen through to its end. Neither hangs on what
the services reply, and the submission comes to its end after few steps. -/

namespace Vetting

/-- The replies among acts came over a network. -/
def OverNetwork (A : List Act) : Prop :=
  ∀ (c : Call) (o : c.Outcome), .answered c o ∈ A →
    ∃ addresses send, o = (Client.perform addresses send c).1

theorem Envelope.status_of_parse {ε : Type} [Envelope ε] {status : UInt16} {body : Text.Bytes}
    {e : ε} (h : parse ε status body = .ok e) : status < 400 ∧ ∃ e', e = withStatus status e' := by
  unfold parse at h
  split at h
  · split at h <;> cases h
  · split at h
    · split at h <;> cases h
    · next e' _ =>
      split at h
      · cases h
      · next hok =>
        cases h
        simp only [isFailure, Bool.or_eq_true, decide_eq_true_eq, not_or] at hok
        exact ⟨UInt16.not_le.mp hok.1, e', rfl⟩

namespace Client

variable {a : PartnerAnswer} {status : UInt16} {body : Text.Bytes} {route : Route} {caller : Caller}
  {input : Json}

/-- The answer that an envelope is turned into has a status that tells of no failure. -/
theorem status_of_parse {ε : Type} [Envelope ε] {f : ε → PartnerAnswer}
    (hf : ∀ status e, (f (Envelope.withStatus status e)).status = status)
    (h : (Envelope.parse ε status body).map f = .ok a) : a.status < 400 := by
  cases hparse : Envelope.parse ε status body with
  | error err =>
    rw [hparse] at h
    cases h
  | ok e =>
    obtain ⟨hlt, e', rfl⟩ := Envelope.status_of_parse hparse
    rw [hparse] at h
    cases h
    rwa [hf]

theorem status_of_read (h : read status body (.ask route caller input) = .ok a) :
    a.status < 400 := by
  cases route with
  | catalog path => exact status_of_parse (f := .catalog) (fun _ _ => rfl) h
  | scoring path => exact status_of_parse (f := .scoring) (fun _ _ => rfl) h

/-- An answer of a product that came over a network has a status below 400. -/
theorem status_of_perform {addresses : Addresses} {send : Outgoing → Received}
    (h : (perform addresses send (.ask route caller input)).1 = .ok a) : a.status < 400 := by
  unfold perform at h
  split at h
  · cases h
  · next o _ =>
    generalize (if o.isSendable then send o else .nothing (.broken "builder error")) = r at h
    cases r with
    | nothing f => cases h
    | head status body =>
      cases body with
      | error f => cases h
      | ok bytes => exact status_of_read h

end Client

namespace Single

/-- The submission `s` is admitted under the subscription `sub`, going by the replies in `A`. -/
structure Admits (i : Identity) (p : Product) (s : Submission) (A : List Act)
    (sub : Subscription) : Prop where
  subscribed : .answered (.subscription i.company p.slug) (.ok sub) ∈ A
  valid : s.check = none
  graded : p.requiresGrading = true →
    ∃ gs : List Grade, gs ≠ [] ∧ .answered (.grades i.company) (.ok gs) ∈ A

/-- The entry tells what the product answered. -/
inductive Tells (b : Brief) (s : Submission) (A : List Act) (ent : LogEntry) : Prop where
  | failed {err} : .answered (Row.ask b s) (.error err) ∈ A → ent.Says b s (Logbook.failed err) →
      Tells b s A ent
  | succeeded {a} : .answered (Row.ask b s) (.ok a) ∈ A → ent.Says b s (Logbook.succeeded a) →
      Tells b s A ent

/-- What holds of a submission at any time. -/
structure SoFar (i : Identity) (p : Product) (s : Submission) (A : List Act) : Prop where
  one_job : (callsOf A).countP Call.createsJob ≤ 1
  /-- The submission is admitted before a job is created for it. -/
  admitted : ∀ A₁ req A₂, A = A₁ ++ .called (.createJob req) :: A₂ →
    ∃ sub, Admits i p s A₁ sub ∧ req = Bulk.jobRequest i sub 1
  /-- Nothing is written, and no product is asked, before there is a job. -/
  job_first : ∀ A₁ c A₂, A = A₁ ++ .called c :: A₂ → c.isRun = true →
    ∃ req ref, .answered (.createJob req) (.ok ref) ∈ A₁
  /-- What is logged of the job is what the product answered. -/
  logged : ∀ ent, .called (.writeLog ent) ∈ A → ∃ sub ref,
    .answered (.createJob (Bulk.jobRequest i sub 1)) (.ok ref) ∈ A ∧
    Tells (Admission.brief i p sub ref 1) s A ent
  /-- No entry tells that the submission is not valid. -/
  never_invalid : ∀ ent, .called (.writeLog ent) ∈ A → ∀ b complaint,
    ¬ ent.Says b s (Logbook.invalid complaint)
  /-- No entry has the status of such a remark, where the replies come over a network. -/
  status_ne : OverNetwork A → ∀ ent, .called (.writeLog ent) ∈ A →
    ent.status ≠ Logbook.invalidStatus

/-- What holds of a submission that has come to its end with `x`. -/
structure AtEnd (i : Identity) (p : Product) (s : Submission) (A : List Act)
    (x : Except Refusal PartnerAnswer) : Prop where
  created : ∀ sub, Admits i p s A sub → .called (.createJob (Bulk.jobRequest i sub 1)) ∈ A
  refused : (∀ req ref, .answered (.createJob req) (.ok ref) ∉ A) → ∃ r, x = .error r
  seen_through : ∀ req ref, .answered (.createJob req) (.ok ref) ∈ A →
    ∃ sub, Admits i p s A sub ∧ SeenThrough (Admission.brief i p sub ref 1) s A x

variable {i : Identity} {p : Product} {body : Json} {A : List Act} {sub : Subscription}

/-! ## Before there is a job -/

/-- The checks of a submission end with the subscription under which it is admitted. -/
theorem admits_of_checks (h : Course (checks i p body) A (.ended (.ok sub))) :
    Admits i p (Submission.ofJson p body) A sub := by
  obtain ⟨r, heq, -⟩ | ⟨sub', A₁, A₂, rfl, h₁, h₂⟩ := h.require_ended
  · cases heq
  obtain ⟨o, rfl, ho⟩ := Admission.subscription_ended h₁
  cases o with
  | error e => cases ho
  | ok sub₀ =>
  cases ho
  cases hcheck : (Submission.ofJson p body).check with
  | some c =>
    simp only [hcheck] at h₂
    obtain ⟨-, hend⟩ := h₂.of_done
    cases hend.eq_of_ended
  | none =>
    simp only [hcheck] at h₂
    obtain ⟨r, heq, -⟩ | ⟨_, G, B, rfl, hG, hB⟩ := h₂.require_ended
    · cases heq
    obtain ⟨rfl, hend⟩ := hB.of_done
    cases hend.eq_of_ended
    obtain ⟨_, _, heq, -⟩ | ⟨-, hgraded⟩ := Admission.grading_ended hG
    · cases heq
    refine ⟨by simp, hcheck, ?_⟩
    intro hreq
    cases hgraded with
    | unneeded hnot => cases hreq.symm.trans hnot
    | found gs _ hne => exact ⟨gs, hne, by simp⟩

theorem Admits.mono {s : Submission} {B : List Act} (h : Admits i p s A sub)
    (hsub : ∀ a ∈ A, a ∈ B) : Admits i p s B sub :=
  ⟨hsub _ h.subscribed, h.valid, fun hreq =>
    (h.graded hreq).imp fun _ hgs => ⟨hgs.1, hsub _ hgs.2⟩⟩

theorem Admits.of_append {s : Submission} {B : List Act} (h : Admits i p s (A ++ B) sub)
    (hB : About (·.isRun = true) B) : Admits i p s A sub := by
  have hleft {c : Call} {o : c.Outcome} (ho : .answered c o ∈ A ++ B) (hc : c.isRun = false) :
      .answered c o ∈ A :=
    (List.mem_append.mp ho).resolve_right (hB.not_mem rfl (by simp [hc]))
  exact ⟨hleft h.subscribed rfl, h.valid, fun hreq =>
    (h.graded hreq).imp fun _ hgs => ⟨hgs.1, hleft hgs.2 rfl⟩⟩

/-! ## At any time -/

theorem about_of_run {b : Brief} {s : Submission} {st : Strand (Except Refusal PartnerAnswer)}
    (h : Course (run b s) A st) : About (·.isRun = true) A := by
  have hcovers : b.Covers (·.isRun = true) :=
    ⟨fun _ => rfl, rfl, fun _ _ => rfl, fun _ => rfl, fun _ => rfl⟩
  exact h.about (hcovers.run_asks s)

theorem due_of_run {b : Brief} {s : Submission} {st : Strand (Except Refusal PartnerAnswer)}
    (h : Course (run b s) A st) {c : Call} (hc : c ∈ callsOf A) (hlog : c.isLog = true) :
    Row.Due b s A c := by
  have hrow {B : List Act} {st : Strand Row.Result} (h : Course (Row.handle b s) B st)
      (hc : c ∈ callsOf B) (hsub : ∀ a ∈ B, a ∈ A) : Row.Due b s A c := by
    have hdue : Row.Due b s (visible B) c :=
      (Row.progress_of_course h).due (by rwa [callsOf_visible]) hlog
    exact hdue.mono fun a ha => hsub a (List.mem_filter.mp ha).1
  have hnot {β : Type} {t : Task β} {B : List Act} {st : Strand β} (h : Course t B st)
      (ht : t.Asks (·.isLog = false)) : c ∉ callsOf B := by
    intro hcB
    cases hlog.symm.trans ((h.about ht).of_mem_callsOf hcB)
  have hstart {B : List Act} {st : Strand (Except ServiceError Unit)}
      (h : Course (Tracking.start b.job) B st) : c ∉ callsOf B := hnot h ⟨rfl, fun _ => trivial⟩
  rcases h.of_bind with ⟨_, h₁⟩ | ⟨_, A₁, A₂, rfl, h₁, h⟩
  · exact absurd hc (hstart h₁)
  rw [callsOf_append] at hc
  have hc := (List.mem_append.mp hc).resolve_left (hstart h₁)
  rcases h.of_bind with ⟨_, h₂⟩ | ⟨_, A₂, A₃, rfl, h₂, h⟩
  · exact hrow h₂ hc fun a ha => List.mem_append_right _ ha
  rw [callsOf_append] at hc
  rcases List.mem_append.mp hc with hc | hc
  · exact hrow h₂ hc fun a ha => List.mem_append_right _ (List.mem_append_left _ ha)
  · obtain ⟨_, h₃⟩ := h.of_map
    exact absurd hc (hnot h₃ (Tracking.attempt_asks_of rfl fun _ => rfl))

/-- What is done for a submission falls into two parts: what is done before there is a job, and the
run of the job, which comes to `st`. -/
structure InParts (i : Identity) (p : Product) (s : Submission) (P K : List Act)
    (st : Strand (Except Refusal PartnerAnswer)) : Prop where
  prepared : About (·.isRun = false) P
  run : About (·.isRun = true) K
  one_job : (callsOf P).countP Call.createsJob ≤ 1
  admitted : ∀ P₁ req P₂, P = P₁ ++ .called (.createJob req) :: P₂ →
    ∃ sub, Admits i p s P₁ sub ∧ req = Bulk.jobRequest i sub 1
  runs : K = [] ∨ ∃ sub ref, Admits i p s P sub ∧
    .answered (.createJob (Bulk.jobRequest i sub 1)) (.ok ref) ∈ P ∧
    Course (Single.run (Admission.brief i p sub ref 1) s) K st

theorem inParts_of_course {st : Strand (Except Refusal PartnerAnswer)}
    (h : Course (execute i p body) A st) :
    ∃ P K, A = P ++ K ∧ InParts i p (Submission.ofJson p body) P K st := by
  rw [execute_eq] at h
  have hchecks : (checks i p body).Asks fun c => c.isRun = false ∧ c.createsJob = false :=
    checks_asks ⟨rfl, rfl⟩ ⟨rfl, rfl⟩ body
  obtain ⟨P, K, rfl, hP, hone, hfrom, hK⟩ := h.creation hchecks fun _ => rfl
  have hadmits {B : List Act} {sub : Subscription} (hB : B <+: P)
      (hc : Course (checks i p body) B (.ended (.ok sub))) :
      Admits i p (Submission.ofJson p body) P sub :=
    (admits_of_checks hc).mono fun a ha => hB.subset ha
  refine ⟨P, K, rfl, hP, ?_, hone, ?_, hK.imp_right ?_⟩
  · rcases hK with rfl | ⟨_, _, -, -, hrun⟩
    · simp [About]
    · exact about_of_run hrun
  · intro P₁ req P₂ heq
    obtain ⟨sub, B, ⟨M, hBM⟩, hB, rfl⟩ := hfrom req (by simp [heq])
    have hunasked : .called (.createJob (Bulk.jobRequest i sub 1)) ∉ B :=
      (hB.about hchecks).not_mem rfl (by simp [Call.createsJob])
    obtain ⟨M₁, rfl, -⟩ := exists_of_append_eq (hBM.trans heq) hunasked
    exact ⟨sub, (admits_of_checks hB).mono fun a ha => List.mem_append_left _ ha, rfl⟩
  · rintro ⟨sub, ref, ⟨B, hB, hc⟩, hcreated, hrun⟩
    exact ⟨sub, ref, hadmits hB hc, hcreated, hrun⟩

section InParts

variable {s : Submission} {P K : List Act} {st : Strand (Except Refusal PartnerAnswer)}

theorem InParts.logged (h : InParts i p s P K st) {ent : LogEntry}
    (hent : .called (.writeLog ent) ∈ P ++ K) : ∃ sub ref,
      .answered (.createJob (Bulk.jobRequest i sub 1)) (.ok ref) ∈ P ++ K ∧
      Tells (Admission.brief i p sub ref 1) s (P ++ K) ent := by
  have hent : .called (.writeLog ent) ∈ K :=
    (List.mem_append.mp hent).resolve_left (h.prepared.not_mem rfl (by simp [Call.isRun]))
  rcases h.runs with rfl | ⟨sub, ref, hadmits, hcreated, hrun⟩
  · cases hent
  have hcall : .writeLog ent ∈ callsOf K := List.mem_filterMap.mpr ⟨_, hent, rfl⟩
  refine ⟨sub, ref, List.mem_append_left _ hcreated, ?_⟩
  cases due_of_run hrun hcall rfl with
  | refused hcheck => cases hadmits.valid.symm.trans hcheck
  | failed _ ho hentered =>
    obtain ⟨e, he, heq⟩ := hentered
    cases heq
    exact .failed (List.mem_append_right _ ho) he
  | succeeded _ ho hrecorded =>
    refine .succeeded (List.mem_append_right _ ho) ?_
    unfold Row.Recorded at hrecorded
    split at hrecorded
    · cases hrecorded
    · obtain ⟨e, he, heq⟩ := hrecorded
      cases heq
      exact he

/-- **What holds of a submission at any time.** -/
theorem InParts.soFar (h : InParts i p s P K st) : SoFar i p s (P ++ K) where
  one_job := by
    have hnone : (callsOf K).countP Call.createsJob = 0 := by
      refine countP_callsOf_eq_zero fun a ha c hc => ?_
      have hrun := h.run a ha c hc
      cases c <;> first | rfl | cases hrun
    rw [callsOf_append, List.countP_append, hnone]
    exact h.one_job
  admitted A₁ req A₂ heq := by
    have hnot : .called (.createJob req) ∉ K := h.run.not_mem rfl (by simp [Call.isRun])
    obtain ⟨P₂, hP⟩ := exists_of_append_eq_left heq hnot
    exact h.admitted A₁ req P₂ hP
  job_first A₁ c A₂ heq hrun := by
    have hnot : .called c ∉ P := h.prepared.not_mem rfl (by simp [hrun])
    obtain ⟨M, rfl, hM⟩ := exists_of_append_eq heq hnot
    rcases h.runs with rfl | ⟨sub, ref, -, hcreated, -⟩
    · simp at hM
    · exact ⟨_, ref, List.mem_append_left _ hcreated⟩
  logged _ := h.logged
  never_invalid ent hent b complaint hinvalid := by
    obtain ⟨hstatus, hfailure⟩ := hinvalid.status_eq
    obtain ⟨sub, ref, -, htells⟩ := h.logged hent
    cases htells with
    | @failed err _ hentry =>
      rw [hentry.status_eq.1, (Row.failed_status err).1] at hstatus
      exact absurd hstatus (show (502 : UInt16) ≠ Logbook.invalidStatus by decide)
    | succeeded _ hentry =>
      rw [hentry.status_eq.2] at hfailure
      cases hfailure
  status_ne hnet ent hent := by
    obtain ⟨sub, ref, -, htells⟩ := h.logged hent
    cases htells with
    | @failed err _ hentry =>
      rw [hentry.status_eq.1, (Row.failed_status err).1]
      decide
    | succeeded ho hentry =>
      obtain ⟨addresses, send, hread⟩ := hnet _ _ ho
      rw [hentry.status_eq.1]
      exact UInt16.ne_of_lt (Client.status_of_perform hread.symm)

end InParts

end Single

/-! ## At the end -/

namespace Admitting

open Single (Admits)

variable {i : Identity} {p : Product} {s : Submission} {A : List Act} {sub : Subscription}
  {ref : JobRef} {found : Option (Subscription × JobRef)}

theorem about (h : Admitting i p A found) : About (·.isRun = false) A := by
  cases h with
  | unsubscribed | ungraded => simp [About, Act.about?, Call.isRun]
  | uncreated _ _ hG | created _ _ hG => cases hG <;> simp [About, Act.about?, Call.isRun]

theorem asks_for_job (h : Admitting i p A found) (ha : Admits i p s A sub) :
    .called (.createJob (Bulk.jobRequest i sub 1)) ∈ A := by
  have hsub := ha.subscribed
  cases h with
  | unsubscribed e => simp at hsub
  | ungraded sub' o hreq hnone =>
    obtain ⟨gs, hne, hgs⟩ := ha.graded hreq
    have hback : Act.answered (.grades i.company) (.ok gs) = .answered (.grades i.company) o := by
      simpa using hgs
    cases hback
    exact absurd (hnone gs rfl) hne
  | uncreated sub' _ hG | created sub' _ hG =>
    have hback : Act.answered (.subscription i.company p.slug) (.ok sub) =
        .answered (.subscription i.company p.slug) (.ok sub') := by
      cases hG <;> simpa using hsub
    cases hback
    simp

theorem found_of_answered (h : Admitting i p A found) {req : JobRequest}
    (ho : .answered (.createJob req) (.ok ref) ∈ A) : ∃ sub, found = some (sub, ref) := by
  cases h with
  | unsubscribed e => simp at ho
  | ungraded sub o =>
    have hback : Act.answered (.createJob req) (.ok ref) = .answered (.grades i.company) o := by
      simpa using ho
    cases hback
  | uncreated sub e hG =>
    have hback : Act.answered (.createJob req) (.ok ref) =
        .answered (.createJob (Bulk.jobRequest i sub 1)) (.error e) := by
      cases hG <;> simpa using ho
    cases hback
  | created sub ref' hG =>
    have hback : Act.answered (.createJob req) (.ok ref) =
        .answered (.createJob (Bulk.jobRequest i sub 1)) (.ok ref') := by
      cases hG <;> simpa using ho
    cases hback
    exact ⟨sub, rfl⟩

theorem created_mem (h : Admitting i p A (some (sub, ref))) :
    .answered (.createJob (Bulk.jobRequest i sub 1)) (.ok ref) ∈ A := by
  cases h
  simp

theorem admits (h : Admitting i p A (some (sub, ref))) (hvalid : s.check = none) :
    Admits i p s A sub := by
  cases h with
  | created sub ref hG =>
    refine ⟨by simp, hvalid, ?_⟩
    intro hreq
    cases hG with
    | unneeded hnot => cases hreq.symm.trans hnot
    | found gs _ hne => exact ⟨gs, hne, by simp⟩

end Admitting

namespace Single

variable {i : Identity} {p : Product} {body : Json} {A : List Act}
  {x : Except Refusal PartnerAnswer}

theorem atEnd_of_invalid {c : Complaint} (hcheck : (Submission.ofJson p body).check = some c)
    (h : Course (execute i p body) A (.ended x)) : AtEnd i p (Submission.ofJson p body) A x := by
  have hexec : execute i p body = (Admission.subscription i p).require fun _ =>
      .done (.error ⟨.badRequest, c.message⟩) := by
    simp only [execute, hcheck]
  rw [hexec] at h
  have hasks : About (· = .subscription i.company p.slug) A :=
    h.about (Task.Asks.require ⟨rfl, fun _ => trivial⟩ fun _ => trivial)
  constructor
  · intro sub hadmits
    cases hcheck.symm.trans hadmits.valid
  · intro _
    rcases h.require_ended with ⟨r, hx, -⟩ | ⟨_, _, _, -, -, hdone⟩
    · exact ⟨r, hx⟩
    · exact ⟨_, hdone.of_done.2.eq_of_ended⟩
  · intro req ref hcreated
    exact absurd hcreated (hasks.not_mem rfl fun heq => by cases heq)

/-- **What holds of a submission at its end.** -/
theorem atEnd (h : Course (execute i p body) A (.ended x)) :
    AtEnd i p (Submission.ofJson p body) A x := by
  cases hcheck : (Submission.ofJson p body).check with
  | some c => exact atEnd_of_invalid hcheck h
  | none =>
    rw [execute_of_valid hcheck] at h
    rcases Admission.single_ended h with ⟨hx, hP⟩ | ⟨P, K, sub, ref, rfl, hP, hK⟩
    · constructor
      · intro sub hadmits
        exact hP.asks_for_job hadmits
      · intro _
        exact hx
      · intro req ref ho
        obtain ⟨_, heq⟩ := hP.found_of_answered ho
        cases heq
    obtain ⟨o, V, W, result, final, hV, hrow, hclosed, rfl⟩ := run_ended hK
    have hparts : Parts (Admission.brief i p sub ref 1) (Submission.ofJson p body) (P ++ K) P
        (visible V) W result final := by
      refine ⟨⟨o, ?_⟩, hP.about, Row.served_of_ended hcheck hrow, hclosed⟩
      rw [visible, List.filter_append]
      exact congrArg₂ (· ++ ·) hP.visible_eq hV
    have hruns : About (·.isRun = true) K := about_of_run hK
    constructor
    · intro sub hadmits
      exact List.mem_append_left _ (hP.asks_for_job (hadmits.of_append hruns))
    · intro hnone
      exact absurd (List.mem_append_left _ hP.created_mem) (hnone _ ref)
    · intro req ref' ho
      have ho : .answered (.createJob req) (.ok ref') ∈ P :=
        (List.mem_append.mp ho).resolve_right (hruns.not_mem rfl (by simp [Call.isRun]))
      obtain ⟨_, heq⟩ := hP.found_of_answered ho
      cases heq
      have hadmits : Admits i p (Submission.ofJson p body) (P ++ K) sub :=
        (hP.admits hcheck).mono fun a ha => List.mem_append_left _ ha
      exact ⟨sub, hadmits, hparts.seenThrough⟩

/-! ## Coming to the end -/

theorem run_within (b : Brief) (s : Submission) : (run b s).Within 24 := by
  have hlast (result : Row.Result) : ((Tracking.attempt b.job b.total).bind fun final =>
      .done (verdict result final)).Within 9 := (Tracking.attempt_within b.job b.total).bind
    fun _ => .done
  exact (Tracking.start_within b.job).bind fun _ => (Row.handle_within b s).bind hlast

/-- Whatever it is told, a submission has at most 33 steps. -/
theorem execute_within (i : Identity) (p : Product) (body : Json) :
    (execute i p body).Within 33 := by
  have hsub : (Admission.subscription i p).Within 3 := .call fun _ => .done
  have hgrading : (Admission.grading i p).Within 3 := by
    unfold Admission.grading
    split
    · refine .call fun o => ?_
      cases o <;> exact .done
    · exact .done
  have hcreation (sub : Subscription) : (Admission.createJob i sub 1).Within 3 := .call fun _ => .done
  refine hsub.require fun sub => ?_
  dsimp only
  split
  · exact .done
  · exact hgrading.require fun _ => (hcreation sub).require fun ref => run_within _ _

end Single

namespace Errand

variable {α : Type} {e e' : Errand α} {evs : List Event} {n : Nat}

theorem length_le (hn : e.strand.Within n) (h : e.steps? evs = some e') : evs.length ≤ n := by
  induction evs generalizing e n with
  | nil => exact Nat.zero_le n
  | cons ev evs ih =>
    obtain ⟨e₁, hev, h⟩ := Option.bind_eq_some_iff.mp h
    obtain ⟨hpos, hn₁⟩ := (step_of_step? hev).within hn
    have hrest := ih hn₁ h
    rw [List.length_cons]
    omega

theorem can_step (h : e.strand.isOver = false) (clock : Instant) (f : (c : Call) → c.Outcome) :
    (∃ e', e.step? (.move clock) = some e') ∨ ∃ e', e.step? (.reply f) = some e' := by
  rcases Strand.can_step h clock e.shared f with ⟨x, hx⟩ | ⟨s', hs'⟩
  · exact .inl ⟨_, congrArg (Option.map _) hx⟩
  · exact .inr ⟨_, congrArg (Option.map _) hs'⟩

end Errand

namespace Single

/-- **A single submission is seen through.** Whatever the services reply, a job is created for it
only after it is admitted, and nothing is asked or written for it before there is a job; nor is it
ever logged that the submission is not valid. It takes at most 33 steps, and can take one until it
is over. When it is over and nothing has crashed it has ended: if it is admitted, a job was asked
for, and if there is a job, that was seen through. -/
theorem submission_seen_through {i : Identity} {p : Product} {body : Json} {issued : UInt64}
    {evs : List Errand.Event} {e : Errand (Except Refusal PartnerAnswer)}
    (h : (Errand.new (execute i p body) issued).steps? evs = some e) :
    let A := (Errand.new (execute i p body) issued).history evs
    let s := Submission.ofJson p body
    SoFar i p s A ∧ evs.length ≤ 33 ∧
      (e.strand.isOver = false → ∀ clock f,
        (∃ e', e.step? (.move clock) = some e') ∨ ∃ e', e.step? (.reply f) = some e') ∧
      (e.strand.isOver = true → (∀ a ∈ A, a.isCrash = false) →
        ∃ x, e.strand = .ended x ∧ AtEnd i p s A x) := by
  intro A s
  have hcourse : Course (execute i p body) A e.strand := (Errand.account_of_steps h).course
  obtain ⟨P, K, hA, hparts⟩ := inParts_of_course hcourse
  have hfar : SoFar i p s (P ++ K) := hparts.soFar
  rw [← hA] at hfar
  have hwithin : (Errand.new (execute i p body) issued).strand.Within 33 := execute_within i p body
  refine ⟨hfar, Errand.length_le hwithin h, Errand.can_step, ?_⟩
  intro hover hcalm
  obtain ⟨x, hx⟩ := hcourse.ended_of_calm hover hcalm
  rw [hx] at hcourse
  exact ⟨x, hx, atEnd hcourse⟩

/-- `phoneSubmission` is seen through, though its product fails and the failure cannot be logged. -/
theorem phone_submission_seen_through : ∃ e x sub,
    phoneSubmission.steps? phoneSubmissionCourse = some e ∧ e.strand = .ended x ∧
    SoFar ⟨9, 5, 0, 0, "0", "key-1"⟩ .phoneLiveStatus
      (.ofJson .phoneLiveStatus (.obj [("phone_number", .str "081234567890")]))
      (phoneSubmission.history phoneSubmissionCourse) ∧
    SeenThrough (Admission.brief ⟨9, 5, 0, 0, "0", "key-1"⟩ .phoneLiveStatus sub ⟨1, 5, 9⟩ 1)
      (.ofJson .phoneLiveStatus (.obj [("phone_number", .str "081234567890")]))
      (phoneSubmission.history phoneSubmissionCourse) x := by
  obtain ⟨e, he, hover, hserve⟩ := phoneSubmission_served
  obtain ⟨hfar, -, -, hend⟩ := submission_seen_through he
  obtain ⟨x, hx, hatEnd⟩ := hend hover hserve.calm
  obtain ⟨sub, -, hseen⟩ := hatEnd.seen_through _ _ (List.mem_of_getElem? (i := 3) rfl)
  exact ⟨e, x, sub, he, hx, hfar, hseen⟩

end Single

end Vetting
