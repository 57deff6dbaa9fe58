import Vetting.Bulk.Plan
import Vetting.Proofs.JobCourse

/-! # Which calls a task makes

`Task.Asks P t` says that all calls of a task are in `P`, whatever it is told; then so are the calls
in its courses. An upload is prepared by calls of its own, none of which a run makes. -/

namespace Vetting

/-- The call that an act is about. -/
def Act.about? : Act → Option Call
  | .called c => some c
  | .answered c _ => some c
  | .crashed c => some c
  | _ => none

variable {α β : Type} {P : Call → Prop}

/-- All calls of the task are in `P`. -/
def Task.Asks (P : Call → Prop) : Task α → Prop
  | .done _ => True
  | .call c next => P c ∧ ∀ o, (next o).Asks P
  | .fresh next => ∀ n, (next n).Asks P
  | .clock next => ∀ i, (next i).Asks P
  | .trip next => ∀ b, (next b).Asks P
  | .latched next => ∀ b, (next b).Asks P
  | .count _ next => next.Asks P

/-- The calls that the acts are about are in `P`. -/
def About (P : Call → Prop) (A : List Act) : Prop := ∀ a ∈ A, ∀ c, a.about? = some c → P c

theorem About.append {A B : List Act} (hA : About P A) (hB : About P B) : About P (A ++ B) :=
  fun a ha => (List.mem_append.mp ha).elim (hA a) (hB a)

theorem About.not_mem {A : List Act} (h : About P A) {a : Act} {c : Call} (hc : a.about? = some c)
    (hP : ¬ P c) : a ∉ A := by
  intro ha
  exact hP (h a ha c hc)

theorem About.of_mem_callsOf {A : List Act} (h : About P A) {c : Call} (hc : c ∈ callsOf A) :
    P c := by
  obtain ⟨a, ha, hac⟩ := List.mem_filterMap.mp hc
  refine h a ha c ?_
  cases a with
  | called => exact hac
  | _ => cases hac

/-- **The acts of a task are about its calls.** -/
theorem Course.about {t : Task α} {A : List Act} {s : Strand α} (h : Course t A s)
    (ht : t.Asks P) : About P A := by
  induction h with
  | rest => simp [About]
  | ended => simp [About]
  | waiting c next => simp [About, Act.about?, ht.1]
  | crashed c next => simp [About, Act.about?, ht.1]
  | call o _ ih => simpa [About, Act.about?, ht.1] using ih (ht.2 o)
  | fresh n _ ih => simpa [About, Act.about?] using ih (ht n)
  | clock i _ ih => simpa [About, Act.about?] using ih (ht i)
  | trip b _ ih => simpa [About, Act.about?] using ih (ht b)
  | latched b _ ih => simpa [About, Act.about?] using ih (ht b)
  | count _ ih => simpa [About, Act.about?] using ih ht

namespace Call

/-- The calls that tell whether an upload is admitted. -/
def isAdmission : Call → Bool
  | .subscription .. => true
  | .quota _ => true
  | .grades _ => true
  | _ => false

/-- The calls of a run. -/
def isRun : Call → Bool
  | .updateJob .. => true
  | .processedCount _ => true
  | .writeLog _ => true
  | .confirmLog _ => true
  | .ask .. => true
  | _ => false

def closesJob : Call → Bool
  | .processedCount _ => true
  | .updateJob _ u => u.endAt.isSome
  | _ => false

end Call

theorem Tracking.start_asks (job : UInt64) : (start job).Asks (·.isRun = true) :=
  ⟨rfl, fun _ => trivial⟩

theorem Tracking.attempt_asks_of {job total : UInt64} (hcount : P (.processedCount job))
    (hwrite : ∀ u, P (.updateJob job u)) : (attempt job total).Asks P := by
  refine ⟨hcount, fun o => ?_⟩
  cases o with
  | error e => trivial
  | ok n =>
    refine fun _ _ => ⟨hwrite _, fun o => ?_⟩
    cases o <;> trivial

theorem Tracking.attempt_asks (job total : UInt64) : (attempt job total).Asks (·.isRun = true) :=
  attempt_asks_of rfl fun _ => rfl

structure LogEntry.Of (e : LogEntry) (b : Brief) : Prop where
  job_eq : e.jobId = b.job
  member_eq : e.member = b.member
  company_eq : e.company = b.company

namespace Row

/-- The calls by which a row is handled. -/
structure Handling (P : Call → Prop) (b : Brief) : Prop where
  log : ∀ e, LogEntry.Of e b → P (.writeLog e)
  confirm : ∀ id, P (.confirmLog id)
  fail : P (.updateJob b.job ⟨none, .failed, none⟩)
  ask : ∀ body, P (.ask b.product.route b.caller body)

theorem log_asks {P : Call → Prop} {b : Brief} (hlog : ∀ e, LogEntry.Of e b → P (.writeLog e))
    (s : Submission) (r : Logbook.Remark) (time : Instant) (k : String → Outcome) :
    (log b s r time k).Asks P :=
  fun _ _ _ => ⟨hlog _ ⟨rfl, rfl, rfl⟩, fun _ => trivial⟩

theorem recordSuccess_asks {P : Call → Prop} {b : Brief} (h : Handling P b) (s : Submission)
    (a : PartnerAnswer) (time : Instant) : (recordSuccess b s a time).Asks P := by
  simp only [recordSuccess]
  split
  · exact ⟨h.confirm _, fun _ => trivial⟩
  · exact log_asks h.log _ _ _ _

/-- Rows make no other calls. -/
theorem handle_asks {P : Call → Prop} {b : Brief} (h : Handling P b) (s : Submission) :
    (handle b s).Asks P := by
  unfold handle
  split
  · exact fun _ => log_asks h.log _ _ _ _
  · refine fun time => ⟨h.ask _, fun o => ?_⟩
    cases o with
    | ok a => exact recordSuccess_asks h _ _ _
    | error e =>
      have hlog := log_asks h.log s (Logbook.failed e) time fun id => .failed id e
      intro before
      cases before with
      | true => exact hlog
      | false => exact ⟨h.fail, fun _ => hlog⟩

theorem handle_runs (b : Brief) (s : Submission) : (handle b s).Asks (·.isRun = true) := by
  have hrun : Handling (·.isRun = true) b := ⟨fun _ _ => rfl, fun _ => rfl, rfl, fun _ => rfl⟩
  exact handle_asks hrun s

end Row

/-! ## Acts that close no job -/

/-- None of the acts is about a call that closes a job. -/
abbrev Unclosing (A : List Act) : Prop := About (·.closesJob = false) A

theorem Tracking.start_unclosing (job : UInt64) : (start job).Asks (·.closesJob = false) :=
  ⟨rfl, fun _ => trivial⟩

theorem Row.handle_unclosing (b : Brief) (s : Submission) :
    (handle b s).Asks (·.closesJob = false) := by
  have hopen : Handling (·.closesJob = false) b := ⟨fun _ _ => rfl, fun _ => rfl, rfl, fun _ => rfl⟩
  exact handle_asks hopen s

/-! ## The preparation of an upload -/

/-- How a task ends that goes on unless it is refused. -/
theorem Course.require_ended {t : Task (Except Refusal α)} {f : α → Task (Except Refusal β)}
    {A : List Act} {x : Except Refusal β} (h : Course (t.require f) A (.ended x)) :
    (∃ r, x = .error r ∧ Course t A (.ended (.error r))) ∨
      ∃ a A₁ A₂, A = A₁ ++ A₂ ∧ Course t A₁ (.ended (.ok a)) ∧ Course (f a) A₂ (.ended x) := by
  obtain ⟨y, A₁, A₂, rfl, h₁, h₂⟩ := h.bind_ended
  cases y with
  | error r =>
    obtain ⟨rfl, hx⟩ := h₂.of_done
    rw [List.append_nil]
    exact .inl ⟨r, hx.eq_of_ended, h₁⟩
  | ok a => exact .inr ⟨a, A₁, A₂, rfl, h₁, h₂⟩

/-- A course of a task that goes on unless it is refused has not left the first part, or is a course
of both. -/
theorem Course.of_require {t : Task (Except Refusal α)} {f : α → Task (Except Refusal β)}
    {A : List Act} {s : Strand (Except Refusal β)} (h : Course (t.require f) A s) :
    (∃ s', Course t A s') ∨
      ∃ a A₁ A₂, A = A₁ ++ A₂ ∧ Course t A₁ (.ended (.ok a)) ∧ Course (f a) A₂ s := by
  rcases h.of_bind with ⟨s', h⟩ | ⟨x, A₁, A₂, rfl, h₁, h₂⟩
  · exact .inl ⟨s', h⟩
  · cases x with
    | error r =>
      obtain ⟨rfl, _⟩ := h₂.of_done
      rw [List.append_nil]
      exact .inl ⟨_, h₁⟩
    | ok a => exact .inr ⟨a, A₁, A₂, rfl, h₁, h₂⟩

theorem Course.of_map {t : Task α} {g : α → β} {A : List Act} {s : Strand β}
    (h : Course (t.bind fun a => .done (g a)) A s) : ∃ s', Course t A s' := by
  rcases h.of_bind with h | ⟨a, A₁, A₂, rfl, h₁, h₂⟩
  · exact h
  · obtain ⟨rfl, _⟩ := h₂.of_done
    rw [List.append_nil]
    exact ⟨_, h₁⟩

theorem Course.demand_ended {c : Call} {A : List Act} {x : Except Refusal c.Reply}
    (h : Course (Task.demand c) A (.ended x)) :
    ∃ o : c.Outcome, A = [.called c, .answered c o] ∧ x = o.mapError Refusal.ofService := by
  cases h with
  | call o h =>
    obtain ⟨rfl, hx⟩ := h.of_done
    exact ⟨o, rfl, hx.eq_of_ended⟩

namespace Bulk

theorem subscription_asks (i : Identity) (p : Product) :
    (Admission.subscription i p).Asks (·.isAdmission = true) := ⟨rfl, fun _ => trivial⟩

theorem grading_asks (P : Call → Prop) {i : Identity} (h : P (.grades i.company)) (p : Product) :
    (Admission.grading i p).Asks P := by
  unfold Admission.grading
  split
  · refine ⟨h, fun o => ?_⟩
    cases o <;> trivial
  · trivial

theorem Plan.quota_asks (i : Identity) (s : Subscription) (n : Nat) :
    (quota i s n).Asks (·.isAdmission = true) := by
  unfold quota
  split
  · refine ⟨rfl, fun o => ?_⟩
    cases o <;> trivial
  · trivial

abbrev jobRequest (i : Identity) (s : Subscription) (n : Nat) : JobRequest :=
  ⟨s.productId, i.member, i.company, .ofNat n⟩

theorem not_created_of_about {A : List Act} (hA : About (·.isAdmission = true) A) (req : JobRequest)
    (job : JobRef) : .answered (.createJob req) (.ok job) ∉ A := fun hmem => by
  cases hA _ hmem _ rfl

/-- A preparation that did `A` created the job `job` for the plan. -/
inductive Plan.Prepared (i : Identity) (p : Product) (pace : Pace) (csv : Text.Bytes) (job : JobRef) :
    List Act → Plan → Prop where
  | mk {rows sub A} : dataRows p csv = .ok rows →
      About (·.isAdmission = true) A →
      Prepared i p pace csv job
        (A ++ [.called (.createJob (jobRequest i sub rows.length)),
          .answered (.createJob (jobRequest i sub rows.length)) (.ok job), .counted (.jobCreated p)])
        ⟨Admission.brief i p sub job (.ofNat rows.length), rows.map (Submission.ofRow p), pace⟩

/-- **How a preparation ends**: with a refusal and no job, or with a plan for the job it created. -/
theorem Plan.prepare_ended {i : Identity} {p : Product} {pace : Pace} {csv : Text.Bytes}
    {A : List Act} {x : Except Refusal Plan} (h : Course (prepare i p pace csv) A (.ended x)) :
    (∃ r, x = .error r ∧ ∀ req job, .answered (.createJob req) (.ok job) ∉ A) ∨
      ∃ job plan, x = .ok plan ∧ Prepared i p pace csv job A plan := by
  rcases h.require_ended with ⟨r, rfl, h₁⟩ | ⟨sub, A₁, A₂, rfl, h₁, h⟩
  · exact .inl ⟨r, rfl, not_created_of_about (h₁.about (subscription_asks i p))⟩
  have hA₁ := h₁.about (subscription_asks i p)
  split at h
  · next f _ =>
    obtain ⟨rfl, hx⟩ := h.of_done
    exact .inl ⟨_, hx.eq_of_ended, not_created_of_about (by simpa using hA₁)⟩
  · next rows hrows =>
    rcases h.require_ended with ⟨r, rfl, h₂⟩ | ⟨_, A₂, A₃, rfl, h₂, h⟩
    · exact .inl ⟨r, rfl, not_created_of_about (hA₁.append (h₂.about (quota_asks ..)))⟩
    have hA₂ := hA₁.append (h₂.about (quota_asks ..))
    rcases h.require_ended with ⟨r, rfl, h₃⟩ | ⟨_, A₃, A₄, rfl, h₃, h⟩
    · have hA₃ := hA₂.append (h₃.about (grading_asks (·.isAdmission = true) rfl p))
      exact .inl ⟨r, rfl, not_created_of_about (List.append_assoc .. ▸ hA₃)⟩
    have hA₃ := hA₂.append (h₃.about (grading_asks (·.isAdmission = true) rfl p))
    rcases h.require_ended with ⟨r, rfl, h₄⟩ | ⟨job, A₄, A₅, rfl, h₄, h₅⟩
    · obtain ⟨o, rfl, ho⟩ := h₄.demand_ended
      cases o with
      | ok job => cases ho
      | error e =>
        refine .inl ⟨r, rfl, fun req job hmem => ?_⟩
        rw [← List.append_assoc, ← List.append_assoc] at hmem
        rcases List.mem_append.mp hmem with hmem | hmem
        · exact not_created_of_about hA₃ req job (by simpa using hmem)
        · simp only [List.mem_cons, reduceCtorEq, Act.answered.injEq, List.not_mem_nil, or_false,
            false_or] at hmem
          obtain ⟨hcall, hreply⟩ := hmem
          cases hcall
          cases hreply
    · obtain ⟨o, rfl, ho⟩ := h₄.demand_ended
      cases o with
      | error e => cases ho
      | ok job' =>
        cases ho
        cases h₅ with
        | count h₅ =>
          obtain ⟨rfl, hx⟩ := h₅.of_done
          refine .inr ⟨job, _, hx.eq_of_ended, ?_⟩
          rw [← List.append_assoc, ← List.append_assoc]
          exact .mk hrows hA₃

end Bulk

end Vetting
