import Vetting.Desk.Single
import Vetting.Proofs.ErrandCourse
import Vetting.Proofs.RunTotals
import Vetting.Proofs.UploadChecks
import Vetting.Proofs.UploadLedger

/-! # Work confined to an identity

All that is done for an identity is done on its behalf and on behalf of nobody else, and all that is
done to a job is done to the one job that was created for it. Work that creates a job falls into two
parts: first calls that work on no job, the creation being the last of them, and then, if the
job was created, calls that work on this job only. -/

namespace Vetting

open Bulk (Who Plan)

namespace Call

/-- Wherever the call says on whose behalf it is made, it says `i`. -/
def Carries (i : Identity) : Call → Prop
  | .subscription company _ => company = i.company
  | .quota q => q.member = i.member ∧ q.company = i.company ∧ q.quotaType = i.quotaType
  | .grades company => company = i.company
  | .createJob r => r.member = i.member ∧ r.company = i.company
  | .updateJob .. => True
  | .processedCount _ => True
  | .writeLog e => e.member = i.member ∧ e.company = i.company
  | .confirmLog _ => True
  | .listJobs s .. => s.member = i.member ∧ s.company = i.company ∧ s.tier = i.tier
  | .jobDetails s .. => s.member = i.member ∧ s.company = i.company ∧ s.tier = i.tier
  | .jobsSummary s .. => s.member = i.member ∧ s.company = i.company ∧ s.tier = i.tier
  | .ask _ caller _ =>
    caller.apiKey = i.apiKey ∧ caller.member = i.member ∧ caller.company = i.company

/-- The job that a call works on. -/
def job? : Call → Option UInt64
  | .updateJob job _ => some job
  | .processedCount job => some job
  | .writeLog e => some e.jobId
  | .ask _ caller _ => some caller.job
  | _ => none

/-- The call is made on behalf of `i` and works on no job. -/
def Prepares (i : Identity) (c : Call) : Prop := c.Carries i ∧ c.job? = none

/-- The call is made on behalf of `i` and works on the job `job`, or on none, and creates none. -/
structure Serves (i : Identity) (job : UInt64) (c : Call) : Prop where
  carries : c.Carries i
  own_job : ∀ j, c.job? = some j → j = job
  creates_none : c.createsJob = false

end Call

/-- What was done was done on behalf of `i`, with one job at most; whatever worked on a job worked
on the one that had been created before. -/
structure Confined (i : Identity) (H : Bulk.History) : Prop where
  carries : ∀ w c, (w, .called c) ∈ H → c.Carries i
  one_job : (callsOf H.acts).countP Call.createsJob ≤ 1
  own_job : ∀ H₁ w c H₂ job, H = H₁ ++ (w, .called c) :: H₂ → c.job? = some job →
    ∃ req ref, (.main, .answered (.createJob req) (.ok ref)) ∈ H₁ ∧ ref.id = job

theorem Confined.nothing (i : Identity) : Confined i [] where
  carries := by simp
  one_job := by simp [History.acts, callsOf]
  own_job := by simp

theorem countP_callsOf_eq_zero {q : Call → Bool} {A : List Act}
    (h : About (fun c => q c = false) A) : (callsOf A).countP q = 0 := by
  rw [List.countP_eq_zero]
  intro c hc
  simp [h.of_mem_callsOf hc]

/-- **Work in two parts is confined**: calls that work on no job, one of which may have created one,
and then calls that serve this job. -/
theorem Confined.of_parts {i : Identity} {P : List Act} {K : Bulk.History}
    (hP : About (Call.Prepares i) P) (hone : (callsOf P).countP Call.createsJob ≤ 1)
    (hK : K = [] ∨ ∃ req ref, .answered (.createJob req) (.ok ref) ∈ P ∧
      About (Call.Serves i ref.id) K.acts) : Confined i (.solo .main P ++ K) := by
  constructor
  · intro w c hmem
    rcases List.mem_append.mp hmem with hmem | hmem
    · exact (hP _ (History.mem_solo.mp hmem).2 c rfl).1
    · rcases hK with rfl | ⟨_, _, _, hK⟩
      · cases hmem
      · exact (hK _ (History.mem_acts hmem) c rfl).carries
  · have hnone : (callsOf K.acts).countP Call.createsJob = 0 := by
      rcases hK with rfl | ⟨_, _, _, hK⟩
      · rfl
      · exact countP_callsOf_eq_zero fun a ha c hc => (hK a ha c hc).creates_none
    simpa [hnone] using hone
  · intro H₁ w c H₂ job heq hjob
    have hnot : (w, .called c) ∉ History.solo .main P := by
      intro hmem
      have hnone := (hP _ (History.mem_solo.mp hmem).2 c rfl).2
      rw [hnone] at hjob
      cases hjob
    obtain ⟨M, rfl, hM⟩ := exists_of_append_eq heq hnot
    rcases hK with rfl | ⟨req, ref, hcreated, hK⟩
    · simp at hM
    · have hmem : (w, .called c) ∈ K := by rw [hM]; simp
      have hown := (hK _ (History.mem_acts hmem) c rfl).own_job job hjob
      exact ⟨req, ref, List.mem_append_left _ (History.mem_solo.mpr ⟨rfl, hcreated⟩), hown.symm⟩

theorem Confined.of_preparation {i : Identity} {P : List Act} (hP : About (Call.Prepares i) P)
    (hone : (callsOf P).countP Call.createsJob ≤ 1) : Confined i (.solo .main P) := by
  have hparts : Confined i (History.solo .main P ++ []) := .of_parts hP hone (.inl rfl)
  rwa [List.append_nil] at hparts

theorem Course.confined {α : Type} {t : Task α} {A : List Act} {s : Strand α} {i : Identity}
    (h : Course t A s) (ht : t.Asks (·.Prepares i)) (hone : t.Asks (·.createsJob = false)) :
    Confined i (.solo .main A) :=
  .of_preparation (h.about ht) (by rw [countP_callsOf_eq_zero (h.about hone)]; omega)

/-! ## Work that creates a job -/

section Creation

variable {α β : Type} {checks : Task (Except Refusal α)} {req : α → JobRequest}
  {rest : α → JobRef → Task (Except Refusal β)} {A : List Act} {s : Strand (Except Refusal β)}
  {Q : Call → Prop}

/-- What was done by a task that demands something: one call at most, and then, if it was granted,
the rest. -/
theorem Course.of_demand {c : Call} {f : c.Reply → Task (Except Refusal β)}
    (h : Course ((Task.demand c).require f) A s) :
    ∃ B K, A = B ++ K ∧ About (· = c) B ∧ (callsOf B).length ≤ 1 ∧
      (K = [] ∨ ∃ x, .answered c (.ok x) ∈ B ∧ Course (f x) K s) := by
  cases h with
  | rest => exact ⟨[], [], rfl, by simp [About], by simp, .inl rfl⟩
  | waiting => exact ⟨[.called c], [], rfl, by simp [About, Act.about?], le_rfl, .inl rfl⟩
  | crashed =>
    exact ⟨[.called c, .crashed c], [], rfl, by simp [About, Act.about?], le_rfl, .inl rfl⟩
  | @call _ _ K _ o h =>
    refine ⟨[.called c, .answered c o], K, rfl, by simp [About, Act.about?], le_rfl, ?_⟩
    cases o with
    | error e => exact .inl h.of_done.1
    | ok x => exact .inr ⟨x, by simp, h⟩

/-- **What was done by a task that creates a job** when its checks are passed: first calls of `Q`,
one of which creates the job that the checks have found, and then, if it was created, the rest. -/
theorem Course.creation
    (h : Course (checks.require fun x => (Task.demand (.createJob (req x))).require (rest x)) A s)
    (hchecks : checks.Asks fun c => Q c ∧ c.createsJob = false)
    (hreq : ∀ x, Q (.createJob (req x))) :
    ∃ P K, A = P ++ K ∧ About Q P ∧ (callsOf P).countP Call.createsJob ≤ 1 ∧
      (∀ r, .called (.createJob r) ∈ P → ∃ x A₁, A₁ <+: P ∧ Course checks A₁ (.ended (.ok x)) ∧
        r = req x) ∧
      (K = [] ∨ ∃ x ref, (∃ A₁, A₁ <+: P ∧ Course checks A₁ (.ended (.ok x))) ∧
        .answered (.createJob (req x)) (.ok ref) ∈ P ∧ Course (rest x ref) K s) := by
  have hprep := hchecks.mono fun c hc => hc.1
  have hnone := hchecks.mono fun c hc => hc.2
  have hunasked {st : Strand (Except Refusal α)} {B : List Act} (h : Course checks B st)
      (r : JobRequest) : .called (.createJob r) ∉ B :=
    (h.about hnone).not_mem rfl (by simp [Call.createsJob])
  rcases h.of_require with ⟨s', h₁⟩ | ⟨x, A₁, A₂, rfl, h₁, h₂⟩
  · refine ⟨A, [], (List.append_nil A).symm, h₁.about hprep, ?_, ?_, .inl rfl⟩
    · rw [countP_callsOf_eq_zero (h₁.about hnone)]
      omega
    · exact fun r hr => absurd hr (hunasked h₁ r)
  obtain ⟨B, K, rfl, hB, hone, hK⟩ := h₂.of_demand
  refine ⟨A₁ ++ B, K, (List.append_assoc ..).symm, ?_, ?_, ?_, hK.imp_right ?_⟩
  · refine (h₁.about hprep).append fun a ha c hc => ?_
    rw [hB a ha c hc]
    exact hreq x
  · rw [callsOf_append, List.countP_append, countP_callsOf_eq_zero (h₁.about hnone), Nat.zero_add]
    exact List.countP_le_length.trans hone
  · intro r hr
    have hrB : .called (.createJob r) ∈ B := (List.mem_append.mp hr).resolve_left (hunasked h₁ r)
    cases hB _ hrB _ rfl
    exact ⟨x, A₁, List.prefix_append _ _, h₁, rfl⟩
  · rintro ⟨ref, hcreated, hrest⟩
    exact ⟨x, ref, ⟨A₁, List.prefix_append _ _, h₁⟩, List.mem_append_right _ hcreated, hrest⟩

end Creation

/-! ## The calls of a job -/

/-- All calls that are made for the job `b` once it has been created are in `P`. -/
structure Brief.Covers (P : Call → Prop) (b : Brief) : Prop where
  update : ∀ u, P (.updateJob b.job u)
  count : P (.processedCount b.job)
  log : ∀ e, LogEntry.Of e b → P (.writeLog e)
  confirm : ∀ id, P (.confirmLog id)
  ask : ∀ body, P (.ask b.product.route b.caller body)

namespace Brief.Covers

variable {P : Call → Prop} {b : Brief} (h : b.Covers P)

include h

theorem start_asks : (Tracking.start b.job).Asks P := ⟨h.update _, fun _ => trivial⟩

theorem attempt_asks : (Tracking.attempt b.job b.total).Asks P :=
  Tracking.attempt_asks_of h.count h.update

theorem handle_asks (s : Submission) : (Row.handle b s).Asks P :=
  Row.handle_asks ⟨h.log, h.confirm, h.update _, h.ask⟩ s

theorem run_asks (s : Submission) : (Single.run b s).Asks P :=
  h.start_asks.bind fun _ => (h.handle_asks s).bind fun _ => h.attempt_asks.bind fun _ => trivial

end Brief.Covers

theorem Bulk.Run.Account.about {P : Call → Prop} {plan : Plan} {A B : List Act} {R : History}
    {r : Run} (h : Account plan A R B r) (hP : plan.brief.Covers P) :
    About P (History.solo Who.main A ++ R ++ .solo .main B).acts := by
  obtain ⟨_, hA⟩ := h.course_opening
  obtain ⟨_, hB⟩ := h.course_closing
  simp only [History.acts_append, History.acts_solo]
  exact ((hA.about hP.start_asks).append (h.rows_about hP.handle_asks)).append
    (hB.about hP.attempt_asks)

theorem Call.Serves.covers {i : Identity} {p : Product} {sub : Subscription} {ref : JobRef}
    {total : UInt64} :
    (Admission.brief i p sub ref total).Covers (Call.Serves i ref.id) where
  update _ := ⟨trivial, by simp [Call.job?, Admission.brief], rfl⟩
  count := ⟨trivial, by simp [Call.job?, Admission.brief], rfl⟩
  log e he := ⟨⟨he.member_eq, he.company_eq⟩, by simp [Call.job?, he.job_eq, Admission.brief], rfl⟩
  confirm _ := ⟨trivial, nofun, rfl⟩
  ask _ := ⟨⟨rfl, rfl, rfl⟩, by simp [Call.job?, Admission.brief, Brief.caller], rfl⟩

/-! ## Single submissions -/

namespace Single

/-- What the checks of a single submission find: the subscription. -/
def checks (i : Identity) (p : Product) (body : Json) : Task (Except Refusal Subscription) :=
  (Admission.subscription i p).require fun sub =>
  match (Submission.ofJson p body).check with
  | some c => .done (.error ⟨.badRequest, c.message⟩)
  | none => (Admission.grading i p).require fun _ => .done (.ok sub)

theorem execute_eq (i : Identity) (p : Product) (body : Json) :
    execute i p body = (checks i p body).require fun sub =>
      (Admission.createJob i sub 1).require fun job =>
      run (Admission.brief i p sub job 1) (Submission.ofJson p body) := by
  unfold execute checks
  rw [Task.require_assoc]
  congr 1
  funext sub
  cases hc : (Submission.ofJson p body).check with
  | some c => simp only [hc]; rfl
  | none => simp only [hc, Task.require_assoc]; rfl

theorem checks_asks {P : Call → Prop} {i : Identity} {p : Product}
    (hsub : P (.subscription i.company p.slug)) (hgrades : P (.grades i.company)) (body : Json) :
    (checks i p body).Asks P := by
  refine Task.Asks.require ⟨hsub, fun _ => trivial⟩ fun sub => ?_
  split
  · trivial
  · exact (Bulk.grading_asks P hgrades p).require fun _ => trivial

/-- **A single submission is confined to the identity it is made for.** -/
theorem confined {i : Identity} {p : Product} {body : Json} {A : List Act}
    {s : Strand (Except Refusal PartnerAnswer)} (h : Course (execute i p body) A s) :
    Confined i (.solo .main A) := by
  rw [execute_eq] at h
  have hchecks : (checks i p body).Asks fun c => c.Prepares i ∧ c.createsJob = false :=
    checks_asks ⟨⟨rfl, rfl⟩, rfl⟩ ⟨⟨rfl, rfl⟩, rfl⟩ body
  obtain ⟨P, K, rfl, hP, hone, -, hK⟩ := h.creation hchecks fun _ => ⟨⟨rfl, rfl⟩, rfl⟩
  rw [History.solo_append]
  refine .of_parts hP hone (hK.imp (by rintro rfl; rfl) ?_)
  rintro ⟨sub, ref, -, hcreated, hrun⟩
  refine ⟨_, ref, hcreated, ?_⟩
  rw [History.acts_solo]
  exact hrun.about (Call.Serves.covers.run_asks _)

end Single

/-! ## Uploads -/

namespace Bulk

variable {i : Identity} {p : Product} {pace : Pace} {csv : Text.Bytes} {A : List Act}
  {s : Strand (Except Refusal Plan)}

theorem Plan.prepare_confined (h : Course (prepare i p pace csv) A s) :
    About (Call.Prepares i) A ∧ (callsOf A).countP Call.createsJob ≤ 1 := by
  rw [prepare_eq] at h
  have hchecks : (checks i p csv).Asks fun c => c.Prepares i ∧ c.createsJob = false := by
    refine checks_asks ⟨⟨rfl, rfl⟩, rfl⟩ (fun sub n => ?_) ⟨⟨rfl, rfl⟩, rfl⟩
    unfold quota
    split
    · refine ⟨⟨⟨⟨rfl, rfl, rfl⟩, rfl⟩, rfl⟩, fun o => ?_⟩
      cases o <;> trivial
    · trivial
  obtain ⟨P, K, rfl, hP, hone, -, hK⟩ := h.creation hchecks fun _ => ⟨⟨rfl, rfl⟩, rfl⟩
  rcases hK with rfl | ⟨_, _, -, -, hrest⟩
  · rw [List.append_nil]
    exact ⟨hP, hone⟩
  · have hquiet : ∀ a ∈ K, a.about? = none := by
      cases hrest with
      | rest => simp
      | count h =>
        obtain ⟨rfl, _⟩ := h.of_done
        simp [Act.about?]
    have habout (Q : Call → Prop) : About Q K := fun a ha c hc => by
      rw [hquiet a ha] at hc
      cases hc
    refine ⟨hP.append (habout _), ?_⟩
    rw [callsOf_append, List.countP_append, countP_callsOf_eq_zero (habout _)]
    exact hone

/-- **An upload is confined to the identity it is made for.** -/
theorem Dispatch.Ledger.confined {H : History} {d : Dispatch}
    (h : Ledger (Plan.prepare i p pace csv) H d) : Confined i H := by
  have hprep {A : List Act} {s : Strand (Except Refusal Plan)}
      (hc : Course (Plan.prepare i p pace csv) A s) : Confined i (.solo .main A) :=
    .of_preparation (Plan.prepare_confined hc).1 (Plan.prepare_confined hc).2
  cases h with
  | preparing _ hc => exact hprep hc
  | refused hc => exact hprep hc
  | stopped hc => exact hprep hc
  | running hc hacc =>
    obtain ⟨hP, hone⟩ := Plan.prepare_confined hc
    refine .of_parts hP hone (.inr ?_)
    rcases Plan.prepare_ended hc with ⟨_, heq, _⟩ | ⟨ref, plan, heq, hprepared⟩
    · cases heq
    · cases heq
      cases hprepared with
      | @mk rows sub P _ _ =>
        exact ⟨jobRequest i sub rows.length, ref, by simp, hacc.about Call.Serves.covers⟩

end Bulk

end Vetting
