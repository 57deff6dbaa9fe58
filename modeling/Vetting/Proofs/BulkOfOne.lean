import Vetting.Proofs.RunOfOne
import Vetting.Proofs.ServedEnds

/-! # A single submission is an upload of one row

Under the same services a single submission and an upload of the same data as its only row make the
same calls, but for the ids and the times of the desk's own. `Submitted` tells what these calls are,
by the replies. -/

namespace Vetting

/-! ## What is seen of a submission -/

/-- What is done about the grades when all is well with them. -/
inductive Graded (i : Identity) (p : Product) : List Act → Prop where
  | unneeded : p.requiresGrading = false → Graded i p []
  | found (gs : List Grade) : p.requiresGrading = true → gs ≠ [] →
      Graded i p [.called (.grades i.company), .answered (.grades i.company) (.ok gs)]

/-- All that is done before a submission is handled: the subscription, the grades where they are
needed, the creation of a job of one row. If all of it succeeds there is a job. -/
inductive Admitting (i : Identity) (p : Product) :
    List Act → Option (Subscription × JobRef) → Prop where
  | unsubscribed (e : ServiceError) : Admitting i p
      [.called (.subscription i.company p.slug),
        .answered (.subscription i.company p.slug) (.error e)] none
  | ungraded (sub : Subscription) (o : Except ServiceError (List Grade)) :
      p.requiresGrading = true → (∀ gs, o = .ok gs → gs = []) → Admitting i p
      [.called (.subscription i.company p.slug),
        .answered (.subscription i.company p.slug) (.ok sub),
        .called (.grades i.company), .answered (.grades i.company) o] none
  | uncreated {G} (sub : Subscription) (e : ServiceError) : Graded i p G → Admitting i p
      (.called (.subscription i.company p.slug) ::
        .answered (.subscription i.company p.slug) (.ok sub) :: G ++
        [.called (.createJob (Bulk.jobRequest i sub 1)),
          .answered (.createJob (Bulk.jobRequest i sub 1)) (.error e)]) none
  | created {G} (sub : Subscription) (ref : JobRef) : Graded i p G → Admitting i p
      (.called (.subscription i.company p.slug) ::
        .answered (.subscription i.company p.slug) (.ok sub) :: G ++
        [.called (.createJob (Bulk.jobRequest i sub 1)),
          .answered (.createJob (Bulk.jobRequest i sub 1)) (.ok ref)]) (some (sub, ref))

/-- All that others see of a valid submission that has come to its end: nothing more if there is no
job; else the job is opened, the submission handled and the job closed. -/
inductive Submitted (i : Identity) (p : Product) (s : Submission) : List Act → Prop where
  | refused {P} : Admitting i p P none → Submitted i p s P
  | handled {P V W sub ref final} (o : Except ServiceError Unit) :
      Admitting i p P (some (sub, ref)) → Row.Handled (Admission.brief i p sub ref 1) s V →
      Tracking.Closed ref.id 1 W final →
      Submitted i p s (P ++ (.called (Tracking.opening ref.id) ::
        .answered (Tracking.opening ref.id) o :: V ++ W))

section Shape

variable {i : Identity} {p : Product} {A : List Act}

theorem Admission.subscription_ended {x : Except Refusal Subscription}
    (h : Course (subscription i p) A (.ended x)) :
    ∃ o, A = [.called (.subscription i.company p.slug),
      .answered (.subscription i.company p.slug) o] ∧ x = o.mapError noSubscription := by
  cases h with
  | call o h =>
    obtain ⟨rfl, hx⟩ := h.of_done
    exact ⟨o, rfl, hx.eq_of_ended⟩

theorem Admission.grading_ended {x : Except Refusal Unit}
    (h : Course (grading i p) A (.ended x)) :
    (∃ r o, x = .error r ∧ p.requiresGrading = true ∧ (∀ gs : List Grade, o = .ok gs → gs = []) ∧
      A = [.called (.grades i.company), .answered (.grades i.company) o]) ∨
      x = .ok () ∧ Graded i p A := by
  unfold grading at h
  cases hreq : p.requiresGrading with
  | false =>
    rw [hreq] at h
    obtain ⟨rfl, hx⟩ := h.of_done
    exact .inr ⟨hx.eq_of_ended, .unneeded hreq⟩
  | true =>
    rw [hreq] at h
    cases h with
    | call o h =>
      cases o with
      | error e =>
        obtain ⟨rfl, hx⟩ := h.of_done
        exact .inl ⟨_, .error e, hx.eq_of_ended, rfl, nofun, rfl⟩
      | ok gs =>
        obtain ⟨rfl, hx⟩ := h.of_done
        cases gs with
        | nil => exact .inl ⟨_, .ok [], hx.eq_of_ended, rfl, by rintro _ ⟨⟩; rfl, rfl⟩
        | cons g gs => exact .inr ⟨hx.eq_of_ended, .found _ hreq (List.cons_ne_nil g gs)⟩

theorem Admission.single_ended {α : Type} {rest : Subscription → JobRef → Task (Except Refusal α)}
    {x : Except Refusal α} (h : Course (single i p rest) A (.ended x)) :
    (∃ r, x = .error r) ∧ Admitting i p A none ∨ ∃ P K sub ref, A = P ++ K ∧
      Admitting i p P (some (sub, ref)) ∧ Course (rest sub ref) K (.ended x) := by
  rcases h.require_ended with ⟨r, rfl, h₁⟩ | ⟨sub, A₁, A₂, rfl, h₁, hgrading⟩
  · obtain ⟨o, rfl, ho⟩ := subscription_ended h₁
    cases o with
    | ok sub => cases ho
    | error e => exact .inl ⟨⟨r, rfl⟩, .unsubscribed e⟩
  obtain ⟨o, rfl, ho⟩ := subscription_ended h₁
  cases o with
  | error e => cases ho
  | ok sub' =>
  cases ho
  rcases hgrading.require_ended with ⟨r, rfl, h₂⟩ | ⟨_, G, A₃, rfl, h₂, hcreation⟩
  · rcases grading_ended h₂ with ⟨_, o, _, hreq, hnone, rfl⟩ | ⟨heq, _⟩
    · exact .inl ⟨⟨r, rfl⟩, .ungraded sub o hreq hnone⟩
    · cases heq
  rcases grading_ended h₂ with ⟨_, _, heq, _⟩ | ⟨_, hG⟩
  · cases heq
  rcases hcreation.require_ended with ⟨r, rfl, h₃⟩ | ⟨ref, A₃, K, rfl, h₃, hrest⟩
  · obtain ⟨o, rfl, ho⟩ := h₃.demand_ended
    cases o with
    | ok ref => cases ho
    | error e => exact .inl ⟨⟨r, rfl⟩, .uncreated sub e hG⟩
  · obtain ⟨o, rfl, ho⟩ := h₃.demand_ended
    cases o with
    | error e => cases ho
    | ok ref' =>
      cases ho
      exact .inr ⟨_, K, sub, ref, by simp, .created sub ref hG, hrest⟩

/-- The run of a submission opens the job, handles the submission and closes the job; what came of
this decides what the client is told. -/
theorem Single.run_ended {b : Brief} {s : Submission} {x : Except Refusal PartnerAnswer}
    (h : Course (run b s) A (.ended x)) : ∃ o V W result final, visible A =
      .called (Tracking.opening b.job) :: .answered (Tracking.opening b.job) o ::
        visible V ++ W ∧
      Course (Row.handle b s) V (.ended result) ∧ Tracking.Closed b.job b.total W final ∧
      x = verdict result final := by
  obtain ⟨o, A₁, A₂, rfl, h₁, h⟩ := h.bind_ended
  obtain ⟨result, A₂, A₃, rfl, h₂, h⟩ := h.bind_ended
  obtain ⟨final, A₃, A₄, rfl, h₃, h₄⟩ := h.bind_ended
  obtain ⟨rfl, hx⟩ := h₄.of_done
  have hstart : ∃ o, A₁ = [.called (Tracking.opening b.job),
      .answered (Tracking.opening b.job) o] := by
    cases h₁ with
    | call o h =>
      obtain ⟨rfl, _⟩ := h.of_done
      exact ⟨o, rfl⟩
  obtain ⟨o, rfl⟩ := hstart
  refine ⟨o, A₂, visible A₃, result, final, ?_, h₂, (Tracking.closing_of_course h₃).of_ended,
    hx.eq_of_ended⟩
  simp [visible, Act.isSilent]

theorem Admitting.visible_eq {found : Option (Subscription × JobRef)} (h : Admitting i p A found) :
    visible A = A := by
  have hgraded {G : List Act} (hG : Graded i p G) : visible G = G := by cases hG <;> rfl
  cases h with
  | unsubscribed => rfl
  | ungraded => rfl
  | uncreated sub e hG =>
    have := hgraded hG
    simp_all [visible, Act.isSilent]
  | created sub e hG =>
    have := hgraded hG
    simp_all [visible, Act.isSilent]

/-- **What is seen of a valid submission** that has come to its end. -/
theorem Single.submitted_of_ended {body : Json} {x : Except Refusal PartnerAnswer}
    (hvalid : (Submission.ofJson p body).check = none)
    (h : Course (execute i p body) A (.ended x)) :
    Submitted i p (Submission.ofJson p body) (visible A) := by
  rw [execute_of_valid hvalid] at h
  rcases Admission.single_ended h with ⟨_, hrefused⟩ | ⟨P, K, sub, ref, rfl, hP, hK⟩
  · rw [hrefused.visible_eq]
    exact .refused hrefused
  · obtain ⟨o, V, W, result, final, hV, hrow, hclosed, _⟩ := run_ended hK
    have hhandled : Row.Handled (Admission.brief i p sub ref 1) _ (visible V) :=
      Row.handled_of_progress (Row.progress_of_course hrow) rfl nofun
    have happend : visible (P ++ K) = P ++ visible K := by
      rw [visible, List.filter_append]
      exact congrArg (· ++ _) hP.visible_eq
    rw [happend, hV]
    exact .handled o hP hhandled hclosed

end Shape

/-! ## The same calls -/

/-- What was called, without the ids and the times of the desk's own. -/
def asked (A : List Act) : List Call := (callsOf A).map Call.forget

/-- The statuses and success counts written to jobs. -/
def writtenOf (cs : List Call) : List (UInt64 × JobStatus × Option UInt64) :=
  cs.filterMap fun
    | .updateJob job u => some (job, u.status, u.successCount)
    | _ => none

theorem writtenOf_forget (cs : List Call) : writtenOf (cs.map Call.forget) = writtenOf cs := by
  induction cs with
  | nil => rfl
  | cons c cs ih => cases c <;> simpa [writtenOf, Call.forget, JobUpdate.forget] using ih

/-- What was called in `A` is the beginning of what was called in `B`, and all of it if `ended`; the
same statuses are then written to jobs. -/
structure CallsAs (A B : List Act) (ended : Prop) : Prop where
  calls : asked A <+: asked B
  at_end : ended → asked A = asked B ∧ writtenOf (callsOf A) = writtenOf (callsOf B)

theorem Task.Alike.callsAs {α β : Type} {Q : α → β → Prop} {t : Task α} {t' : Task β}
    {S : Services} {A B : List Act} {s : Strand α} {b : β} {ended : Prop} (h : t.Alike Q t')
    (hA : Course t A s) (hB : Course t' B (.ended b)) (hSA : S.Serve [] A) (hSB : S.Serve [] B)
    (hlA : Agrees false A) (hlB : Agrees false B) (hended : ended → ∃ a, s = .ended a) :
    CallsAs A B ended := by
  obtain ⟨hpre, hend⟩ := h.calls_prefix rfl hA hB hSA hSB hlA hlB
  refine ⟨hpre, fun hover => ?_⟩
  obtain ⟨a, ha⟩ := hended hover
  have hsame := (hend a ha).2
  exact ⟨hsame, by rw [← writtenOf_forget, ← writtenOf_forget (callsOf B), hsame]⟩

open Bulk (Dispatch Pace Plan)

section SameData

variable {i : Identity} {p : Product} {pace : Pace} {csv : Text.Bytes} {body : Json}
  {row : List String}

theorem Single.execute_alike (hvalid : (Submission.ofJson p body).check = none) :
    (execute i p body).Alike (fun _ _ => True) (execute i p body) := by
  rw [execute_of_valid hvalid]
  exact Admission.single_alike fun _ _ => run_alike _ _

/-- If there cannot be as many permits as are asked for, an upload does nothing to its job but to
open it. -/
theorem Bulk.Dispatch.opening_only {shared : Shared} {now : Nat} {journal : List (Entry Bulk.Who)}
    {es : List Event} {d : Dispatch}
    (h : (new (Plan.prepare i p pace csv) shared now journal).steps? es = some d)
    (hfits : pace.capFits = false) {w : Bulk.Who} {c : Call}
    (hmem : (w, .called c) ∈ (new (Plan.prepare i p pace csv) shared now journal).history es)
    (hrun : c.isRun = true) : ∃ job, c = Tracking.opening job := by
  have hprep {A : List Act} {s : Strand (Except Refusal Plan)}
      (hc : Course (Plan.prepare i p pace csv) A s)
      (hA : (w, .called c) ∈ History.solo Bulk.Who.main A) :
      ∃ job, c = Tracking.opening job := by
    have hnot : c.isRun = false :=
      hc.about (Plan.prepare_asks i p pace csv) _ (History.mem_solo.mp hA).2 c rfl
    rw [hrun] at hnot
    cases hnot
  have hacc := account_of_steps h
  generalize (new (Plan.prepare i p pace csv) shared now journal).history es = H at hacc hmem
  cases hacc with
  | preparing _ hc => exact hprep hc hmem
  | refused hc => exact hprep hc hmem
  | stopped hc => exact hprep hc hmem
  | running hc hfresh hes =>
    obtain ⟨job, plan, heq, hprepared⟩ := (Plan.prepare_ended hc).resolve_left nofun
    cases heq
    obtain ⟨_, _, _, _, hpace⟩ := hprepared.plan_eq
    have hopen := Bulk.Run.leftOpen_of_steps hfresh hes hprepared.about (hpace ▸ hfits)
    exact ⟨_, hopen.opening_only w c hmem hrun⟩

/-- **A single submission is an upload of one row.** The tenant is not metered, the body and the
only row of the file say the same, and this is valid; the services go by what they were asked so
far, and nothing crashes. Then there is one sequence of calls, as `Submitted` tells it by the
replies, that both make, but for the ids and the times of the desk's own: whatever either of them
has called is a beginning of it, and at its end it has called all of it and written the same
statuses and success counts. Both can be brought to their end by the services from wherever they
stand. If the upload asks for more permits than can be given out, it makes the beginning of the
calls only: the opening of the job is the last one. -/
theorem single_is_upload_of_one (S : Services) (hmet : i.quotaType = "0")
    (hrow : Plan.dataRows p csv = .ok [row])
    (hsame : Submission.ofJson p body = Submission.ofRow p row)
    (hvalid : (Submission.ofRow p row).check = none) (hcap : pace.cap ≠ some 0) :
    ∃ B, S.Serve [] B ∧ Agrees false B ∧ Submitted i p (Submission.ofRow p row) (visible B) ∧
      (∀ issued evs e, (Errand.new (Single.execute i p body) issued).steps? evs = some e →
        let A := (Errand.new (Single.execute i p body) issued).history evs
        S.Serve [] A →
          CallsAs A B (e.strand.isOver = true) ∧ e.EndsServed S (callsOf A)) ∧
      ∀ shared now journal (es : List Bulk.Event) d,
        (Dispatch.new (Plan.prepare i p pace csv) shared now journal).steps? (es.map .run) =
          some d →
        let H := (Dispatch.new (Plan.prepare i p pace csv) shared now journal).history
          (es.map .run)
        S.Serve [] H.acts →
          CallsAs H.acts B (pace.capFits = true ∧ d.answer?.isSome = true) ∧
          d.AnswersServed S (callsOf H.acts) ∧
          (pace.capFits = false → ∀ w c, (w, .called c) ∈ H → c.isRun = true →
            ∃ job, c = Tracking.opening job) := by
  have hvalid' : (Submission.ofJson p body).check = none := hsame ▸ hvalid
  obtain ⟨B, x, hB, hSB, hlB⟩ := Task.exists_served S (Single.execute i p body) [] false
  refine ⟨B, hSB, hlB, hsame ▸ Single.submitted_of_ended hvalid' hB, ?_, ?_⟩
  · intro issued evs e he A hSA
    have hacc : Errand.Account _ A e := Errand.account_of_steps he
    have hne : e.strand ≠ .crashed := by
      intro hcr
      obtain ⟨a, ha, hcrash⟩ := hacc.course.isCrash_mem.mpr hcr
      rw [hSA.calm a ha] at hcrash
      cases hcrash
    exact ⟨(Single.execute_alike hvalid').callsAs hacc.course hB hSA hSB hacc.agrees hlB
      fun hover => hacc.course.ended_of_calm hover hSA.calm, Errand.endsServed S hne _⟩
  · intro shared now journal es d hd H hSH
    obtain ⟨st, hH, hlH, hend⟩ := Dispatch.course_of_one hd hmet hrow hSH.calm
    refine ⟨?_, Dispatch.answersServed S hd hcap _, ?_⟩
    · exact (Plan.prepareAndRun_alike hmet hrow hsame hvalid).callsAs hH hB hSH hSB hlH hlB
        fun ⟨hfits, hans⟩ => hend hfits hans
    · exact fun hfits w c hmem hrun => Dispatch.opening_only hd hfits hmem hrun

end SameData

/-- Services that fail wherever a job does not hang on them, whatever they were asked before. -/
def failingServices : Services where
  reply _ := Dispatch.failing
  steady := by
    rintro _ _ c c' - hc
    rcases Call.forget_eq hc with rfl | ⟨e, e', rfl, rfl⟩ | ⟨job, u, u', rfl, rfl, hend⟩
    · rfl
    · rfl
    · simp only [Dispatch.failing, hend]
      rfl

def phoneSubmission : Errand (Except Refusal PartnerAnswer) :=
  .new (Single.execute ⟨9, 5, 0, 0, "0", "key-1"⟩ .phoneLiveStatus
    (.obj [("phone_number", .str "081234567890")])) 0

/-- How it goes by `Dispatch.failing`. -/
def phoneSubmissionCourse : List Errand.Event :=
  let moves (n : Nat) : List Errand.Event := .replicate n (.move default)
  let reply : Errand.Event := .reply Dispatch.failing
  moves 1 ++ [reply] ++ moves 1 ++ [reply] ++ moves 1 ++ [reply] ++ moves 2 ++ [reply] ++ moves 2 ++
    [reply] ++ moves 4 ++ [reply] ++ moves 1 ++ [reply] ++ moves 3 ++ [reply] ++ moves 2

theorem phoneSubmission_served : ∃ e, phoneSubmission.steps? phoneSubmissionCourse = some e ∧
    e.strand.isOver = true ∧
    failingServices.Serve [] (phoneSubmission.history phoneSubmissionCourse) :=
  ⟨_, rfl, rfl, And.intro rfl (And.intro rfl (And.intro rfl (And.intro rfl (And.intro rfl
    (And.intro rfl (And.intro rfl (And.intro rfl trivial)))))))⟩

theorem oneRow_served : ∃ d, Dispatch.oneRow.steps? (Dispatch.oneRowCourse.map .run) = some d ∧
    d.answer?.isSome = true ∧
    failingServices.Serve [] (Dispatch.oneRow.history (Dispatch.oneRowCourse.map .run)).acts :=
  ⟨_, rfl, rfl, And.intro rfl (And.intro rfl (And.intro rfl (And.intro rfl (And.intro rfl
    (And.intro rfl (And.intro rfl (And.intro rfl trivial)))))))⟩

theorem dataRows_oneRow : Plan.dataRows .phoneLiveStatus
    (Text.utf8 "Phone Number\n081234567890\n") = .ok [["081234567890"]] := by decide +kernel

/-- The submission of a phone number and the upload of the same phone number make the same calls,
though its product fails and the failure cannot be logged. -/
theorem phone_submitted_as_uploaded : ∃ B, asked (phoneSubmission.history phoneSubmissionCourse) =
      asked B ∧
    asked (Dispatch.oneRow.history (Dispatch.oneRowCourse.map .run)).acts = asked B ∧
    writtenOf (callsOf B) =
      [(1, .inProgress, none), (1, .failed, none), (1, .failed, some 0)] := by
  obtain ⟨e, he, hover, hserve⟩ := phoneSubmission_served
  obtain ⟨d, hd, hans, hserve'⟩ := oneRow_served
  have hsame : Submission.ofJson .phoneLiveStatus (.obj [("phone_number", .str "081234567890")]) =
      .ofRow .phoneLiveStatus ["081234567890"] := rfl
  have hcap : (Pace.mk 100 1000 none).cap ≠ some 0 := nofun
  obtain ⟨B, _, _, _, hsingle, hupload⟩ := single_is_upload_of_one failingServices
    (i := ⟨9, 5, 0, 0, "0", "key-1"⟩) rfl dataRows_oneRow hsame rfl hcap
  have hcalls := ((hsingle 0 phoneSubmissionCourse e he hserve).1.at_end hover).1
  have hboth := (hupload _ _ _ Dispatch.oneRowCourse d hd hserve').1.at_end ⟨rfl, hans⟩
  exact ⟨B, hcalls, hboth.1, hboth.2.symm⟩

def overdrawnCourse : List Bulk.Event :=
  Dispatch.oneRowCourse.take 7 ++ [.move .main default, .reply .main Dispatch.failing,
    .move .main default, .move .main default]

/-- With one permit more than can be given out the upload is over when its job has been opened,
while the submission of the same data goes on for five more calls. -/
theorem not_uploaded_beyond_maxCap : ∃ d e,
    Plan.dataRows .phoneLiveStatus (Text.utf8 "Phone Number\n081234567890\n") =
      .ok [["081234567890"]] ∧
    Submission.ofJson .phoneLiveStatus (.obj [("phone_number", .str "081234567890")]) =
      .ofRow .phoneLiveStatus ["081234567890"] ∧
    (Submission.ofRow .phoneLiveStatus ["081234567890"]).check = none ∧
    some (Pace.maxCap + 1) ≠ some 0 ∧
    Dispatch.overdrawnRow.steps? (overdrawnCourse.map .run) = some d ∧
    d.answer?.isSome = true ∧
    failingServices.Serve [] (Dispatch.overdrawnRow.history (overdrawnCourse.map .run)).acts ∧
    phoneSubmission.steps? phoneSubmissionCourse = some e ∧ e.strand.isOver = true ∧
    failingServices.Serve [] (phoneSubmission.history phoneSubmissionCourse) ∧
    asked (Dispatch.overdrawnRow.history (overdrawnCourse.map .run)).acts =
      [.subscription 9 "IDENTITY_phone_live_status", .createJob ⟨4, 5, 9, 1⟩,
        Tracking.opening 1] ∧
    (asked (phoneSubmission.history phoneSubmissionCourse)).length = 8 := by
  obtain ⟨e, he, hover, hserve⟩ := phoneSubmission_served
  have hserve' : failingServices.Serve []
      (Dispatch.overdrawnRow.history (overdrawnCourse.map .run)).acts :=
    And.intro rfl (And.intro rfl (And.intro rfl trivial))
  exact ⟨_, e, dataRows_oneRow, rfl, rfl, by decide, rfl, rfl, hserve', he, hover, hserve, rfl, rfl⟩

end Vetting
