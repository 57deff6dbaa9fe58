import Vetting.Proofs.ClientAnswer
import Vetting.Proofs.UploadChecks

/-! # Runs outlive their clients

The client of an upload goes away only where its own strand waits: at a call of the preparation, or
for the run. The creation of the job is the last call of a preparation, so wherever the client goes
away, either no job is known to have been created and the upload stops, or the run has begun; and a
run does the same with a client as without one. -/

namespace Vetting

/-- The strand makes a call next, or waits for one. -/
inductive Strand.AtCall {α : Type} : Strand α → Prop where
  | next (c : Call) (next : c.Outcome → Task α) : AtCall (.ready (.call c next))
  | pending (c : Call) (next : c.Outcome → Task α) : AtCall (.waiting c next)

namespace Bulk

/-- The upload was told that its job had been created. -/
def History.Creates (H : History) (ref : JobRef) : Prop :=
  ∃ req, (.main, .answered (.createJob req) (.ok ref)) ∈ H

theorem History.creates_solo {A : List Act} {ref : JobRef} :
    Creates (.solo .main A) ref ↔ ∃ req, .answered (.createJob req) (.ok ref) ∈ A := by
  simp [Creates, History.mem_solo]

section Preparation

variable {i : Identity} {p : Product} {pace : Pace} {csv : Text.Bytes} {A : List Act}
  {s : Strand (Except Refusal Plan)}

/-- **A preparation makes no call after the creation of its job.** -/
theorem Plan.not_creates_of_atCall (h : Course (prepare i p pace csv) A s) (hs : s.AtCall)
    (ref : JobRef) : ¬ History.Creates (.solo .main A) ref := by
  rw [History.creates_solo]
  rintro ⟨req, hmem⟩
  rw [prepare_eq] at h
  rcases h.of_require with ⟨_, h₁⟩ | ⟨⟨sub, rows⟩, A₁, A₂, rfl, h₁, h₂⟩
  · exact not_created_of_about (h₁.about (checks_admission i p csv)) req ref hmem
  have hmem₂ : .answered (.createJob req) (.ok ref) ∈ A₂ :=
    (List.mem_append.mp hmem).resolve_left
      (not_created_of_about (h₁.about (checks_admission i p csv)) req ref)
  cases h₂ with
  | rest => cases hmem₂
  | waiting => simp at hmem₂
  | crashed => simp at hmem₂
  | call o h₃ =>
    cases o with
    | error e =>
      obtain ⟨rfl, _⟩ := h₃.of_done
      simp only [List.mem_cons, reduceCtorEq, Act.answered.injEq, List.not_mem_nil, false_or,
        or_false] at hmem₂
      obtain ⟨hcall, hreply⟩ := hmem₂
      cases hcall
      cases hreply
    | ok ref' =>
      -- what is left is to count the job and to end
      cases h₃ with
      | rest => cases hs
      | count h₄ => cases h₄ <;> cases hs

theorem Plan.Prepared.creates {ref : JobRef} {plan : Plan} (h : Prepared i p pace csv ref A plan) :
    History.Creates (.solo .main A) ref := by
  rw [History.creates_solo]
  cases h
  exact ⟨_, List.mem_append_right _ (.tail _ (.head _))⟩

end Preparation

theorem Run.Concluded.prepend {plan : Plan} {A : List Act} {K : History} (h : Concluded plan K)
    (hA : About (·.isRun = false) A) (hask : A.any Act.isAskError = false) :
    Concluded plan (.solo .main A ++ K) := by
  have hreads : (callsOf A).countP Call.isCountRead = 0 := by
    rw [List.countP_eq_zero]
    intro c hc hread
    have hrun : c.isRun = false := hA.of_mem_callsOf hc
    cases c <;> simp [Call.isRun, Call.isCountRead] at hrun hread
  have hwrites : (callsOf A).filter Call.isStatusWrite = [] := by
    rw [List.filter_eq_nil_iff]
    intro c hc hwrite
    have hrun : c.isRun = false := hA.of_mem_callsOf hc
    cases c <;> simp [Call.isRun, Call.isStatusWrite] at hrun hwrite
  have hany : (History.solo Who.main A ++ K).acts.any Act.isAskError =
      K.acts.any Act.isAskError := by
    simp [hask]
  have hstatus : History.statusWrites (.solo .main A ++ K) = K.statusWrites := by
    simp [History.statusWrites, hwrites]
  constructor
  · simpa [hreads] using h.countedOnce
  · rw [hany, hstatus]
    obtain ⟨T, hT, hend⟩ := h.writes
    refine ⟨T, hT, hend.imp ?_ ?_⟩
    · rintro ⟨e, hmem, hnil⟩
      exact ⟨e, List.mem_append_right _ hmem, hnil⟩
    · rintro ⟨n, time, hmem, hone⟩
      exact ⟨n, time, List.mem_append_right _ hmem, hone⟩

namespace Dispatch

variable {r : Run}

theorem steps?_running (r : Run) (gone : Bool) (fs : List Bulk.Event) :
    (running r gone).steps? (fs.map .run) = (r.steps? fs).map (.running · gone) := by
  induction fs generalizing r with
  | nil => rfl
  | cons e fs ih =>
    simp only [List.map_cons, steps?, step?, Run.steps?]
    cases r.step? e with
    | none => rfl
    | some r' => exact ih r'

theorem history_running (r : Run) (gone : Bool) (fs : List Bulk.Event) :
    (running r gone).history (fs.map .run) = r.history fs := by
  induction fs generalizing r with
  | nil => rfl
  | cons e fs ih =>
    simp only [List.map_cons, history, step?, Run.history]
    cases r.step? e with
    | none => rfl
    | some r' => exact congrArg _ (ih r')

/-- The client's strand waits, so that the client may go away. -/
inductive Suspended : Dispatch → Prop where
  | preparing {p : Preparation} : p.strand.AtCall → Suspended (.preparing p)
  | running (r : Run) : Suspended (.running r false)

/-- If its client goes away, an upload that did `H` stops for good, without having done anything to
a job. -/
def StopsAlone (H : History) (d : Dispatch) : Prop :=
  (∀ w c, (w, .called c) ∈ H → c.isRun = false) ∧
    ∃ p, d.step? .leave = some (.stopped p) ∧ ∀ e, (stopped p).step? e = none

/-- If its client goes away, an upload is the run `r`, and this goes as it does with its client. -/
def RunsAlone (d : Dispatch) (r : Run) : Prop :=
  ∀ fs : List Bulk.Event,
    d.steps? (.leave :: fs.map .run) = (r.steps? fs).map (.running · true) ∧
    d.steps? (fs.map .run) = (r.steps? fs).map (.running · false) ∧
    d.history (.leave :: fs.map .run) = d.history (fs.map .run)

theorem runsAlone_running (r : Run) : RunsAlone (.running r false) r := by
  intro fs
  have hleave : (running r false).step? .leave = some (.running r true) := rfl
  refine ⟨?_, steps?_running r false fs, ?_⟩
  · simpa [steps?, hleave] using steps?_running r true fs
  · simp [history, hleave, acts, history_running]

end Dispatch

namespace Run

open Tracking (opening)

/-- The job of `r`, the run of an upload that did `H`, is seen through: the run does boundedly many
steps, can be brought to its end, and has concluded by then. -/
structure SeenThrough (r : Run) (H : History) : Prop where
  bounded : ∀ fs r', r.steps? fs = some r' →
    fs.countP (!·.isTick) ≤ 16 * r.plan.submissions.length + 17
  goes_on : ∀ clock f, ∃ fs r' o, r.steps? fs = some r' ∧ (∀ e ∈ fs, e.Calm clock f) ∧
    r'.phase = .over o
  concluded : r.answer? ≠ none → Concluded r.plan H

/-- The job of `r`, the run of an upload that did `H`, is left as it was opened, at best. -/
structure LeftOpen (r : Run) (H : History) : Prop where
  opening_only : ∀ w c, (w, .called c) ∈ H → c.isRun = true → c = opening r.plan.brief.job
  never_over : ∀ o, r.phase ≠ .over o

variable {A : List Act} {r₀ r : Run} {es : List Event}

theorem countP_steps_le_of_fresh (hfresh : r₀.Fresh) {fs : List Event} {r' : Run}
    (h : r₀.steps? es = some r) (hfs : r.steps? fs = some r') :
    fs.countP (!·.isTick) ≤ 16 * r₀.plan.submissions.length + 17 := by
  have hall : r₀.steps? (es ++ fs) = some r' := by rw [steps?_append, h]; exact hfs
  have hle := countP_steps_le (within_of_fresh hfresh) hall
  rw [List.countP_append] at hle
  omega

/-- **A run without a crash of its main strand sees its job through**, if there are permits and no
more than can be given out. -/
theorem seenThrough_of_steps (hfresh : r₀.Fresh) (h : r₀.steps? es = some r)
    (hA : About (·.isRun = false) A ∧ A.any Act.isAskError = false)
    (hmain : ∀ a ∈ (History.solo Who.main A ++ r₀.history es).of .main, a.isCrash = false)
    (hcap : r₀.plan.pace.cap ≠ some 0) (hfits : r₀.plan.pace.capFits = true) :
    r.SeenThrough (.solo .main A ++ r₀.history es) := by
  have hmain' : ∀ a ∈ (r₀.history es).of .main, a.isCrash = false := fun a ha =>
    hmain a (by simp [ha])
  have hagree := (latch_of_steps hfresh h).1
  have hne := phase_ne_crashed hfresh h hmain' hfits
  have hends := completes hfresh h hmain' hcap hfits
  have hbound {fs : List Event} {r' : Run} (hfs : r.steps? fs = some r') :=
    countP_steps_le_of_fresh hfresh h hfs
  obtain ⟨P, R, B, hacc, hH⟩ := account_of_steps hfresh h
  rw [hH] at hagree ⊢
  refine ⟨fun fs r' hfs => by rw [hacc.plan_eq]; exact hbound hfs, hends, ?_⟩
  intro hans
  cases hph : r.phase with
  | «over» o =>
    rw [hacc.plan_eq]
    exact (hacc.concluded hagree hph).prepend hA.1 hA.2
  | crashed => exact absurd hph hne
  | _ => exact absurd (by simp [answer?, hph]) hans

/-- A run that asks for more permits than can be given out leaves its job open. -/
theorem leftOpen_of_steps (hfresh : r₀.Fresh) (h : r₀.steps? es = some r)
    (hA : About (·.isRun = false) A) (hfits : r₀.plan.pace.capFits = false) :
    r.LeftOpen (.solo .main A ++ r₀.history es) := by
  obtain ⟨P, R, B, hacc, hH⟩ := account_of_steps hfresh h
  obtain ⟨rfl, rfl, hover⟩ := hacc.of_not_fits hfits
  refine ⟨?_, hover⟩
  intro w c hmem hrun
  rcases List.mem_append.mp hmem with hmem | hmem
  · have hnot : c.isRun = false := hA _ (History.mem_solo.mp hmem).2 c rfl
    rw [hrun] at hnot
    cases hnot
  · have hP : (w, .called c) ∈ History.solo .main P := by simpa [hH, History.solo] using hmem
    obtain ⟨s, hcourse⟩ := hacc.course_opening
    have hc : c ∈ callsOf P := List.mem_filterMap.mpr ⟨_, (History.mem_solo.mp hP).2, rfl⟩
    rw [hacc.plan_eq]
    rcases Tracking.callsOf_start hcourse with ⟨rfl, _⟩ | hcalls
    · cases hc
    · rw [hcalls] at hc
      exact List.mem_singleton.mp hc

end Run

namespace Dispatch

/-- **A run outlives its client.** Wherever the client of an upload goes away: if the upload was not
told that its job had been created, it stops, without any call of a run before or afterwards. If it
was told so, its run has begun, and makes the same calls at the same times as it does with its
client. Unless its main strand crashes, it does boundedly many steps, comes to its end, and by then
has finalized the job as every run does; but if it asks for more permits than can be given out, it
never does anything but to open the job. -/
theorem run_outlives_client {i : Identity} {p : Product} {pace : Pace} {csv : Text.Bytes}
    {shared : Shared} {now : Nat} {journal : List (Entry Who)} {es : List Bulk.Event} {d : Dispatch}
    (h : (new (Plan.prepare i p pace csv) shared now journal).steps? (es.map .run) = some d)
    (hsus : d.Suspended) :
    let H := (new (Plan.prepare i p pace csv) shared now journal).history (es.map .run)
    ((∀ ref, ¬ H.Creates ref) → d.StopsAlone H) ∧
    ∀ ref, H.Creates ref → ∃ r, d = .running r false ∧ r.plan.brief.job = ref.id ∧ d.RunsAlone r ∧
      ∀ fs r', r.steps? fs = some r' →
        let K := H ++ d.history (.leave :: fs.map .run)
        (pace.capFits = true → pace.cap ≠ some 0 → (∀ a ∈ K.of .main, a.isCrash = false) →
          r'.SeenThrough K) ∧
        (pace.capFits = false → r'.LeftOpen K) := by
  intro H
  have hacc : Account _ H d := account_of_steps h
  clear_value H
  cases hacc with
  | preparing hne hc =>
    cases hsus with | preparing hat =>
    refine ⟨fun _ => ⟨?_, _, rfl, fun e => by cases e <;> rfl⟩, ?_⟩
    · intro w c hmem
      exact hc.about (Plan.prepare_asks i p pace csv) _ (History.mem_solo.mp hmem).2 c rfl
    · exact fun ref hcr => absurd hcr (Plan.not_creates_of_atCall hc hat ref)
  | refused => cases hsus
  | stopped => cases hsus
  | @running A es' r gone r₀ hc hfresh hes =>
    cases hsus
    rcases Plan.prepare_ended hc with ⟨_, heq, _⟩ | ⟨ref, plan, heq, hprep⟩
    · cases heq
    cases heq
    obtain ⟨req, hreq⟩ := hprep.creates
    constructor
    · exact fun hnot => absurd ⟨req, List.mem_append_left _ hreq⟩ (hnot ref)
    rintro ref' ⟨req', hreq'⟩
    have hown : ref' = ref := by
      rcases List.mem_append.mp hreq' with hmem | hmem
      · exact hprep.job_unique (History.mem_solo.mp hmem).2
      · exact absurd hmem (not_created_by_run hfresh hes req')
    obtain ⟨_, _, hjob, _, hpace⟩ := hprep.plan_eq
    obtain ⟨P, R, B, hacc', _⟩ := Run.account_of_steps hfresh hes
    refine ⟨r, rfl, by rw [hacc'.plan_eq, hjob, hown], runsAlone_running r, ?_⟩
    intro fs r' hfs
    have hall : r₀.steps? (es' ++ fs) = some r' := by rw [Run.steps?_append, hes]; exact hfs
    have hK : History.solo .main A ++ r₀.history es' ++
        (running r false).history (.leave :: fs.map .run) =
          .solo .main A ++ r₀.history (es' ++ fs) := by
      rw [(runsAlone_running r fs).2.2, history_running, List.append_assoc, Run.history_append hes]
    rw [hK, ← hpace]
    exact ⟨fun hfits hcap hcalm =>
        Run.seenThrough_of_steps hfresh hall ⟨hprep.about, hprep.quiet.2⟩ hcalm hcap hfits,
      fun hfits => Run.leftOpen_of_steps hfresh hall hprep.about hfits⟩

/-- The client of `oneRow` goes away when the run has just begun; the job is finalized all the
same. -/
theorem one_row_outlives_client : ∃ r r',
    oneRow.steps? ((oneRowCourse.take 7).map .run) = some (.running r false) ∧
    r.steps? (oneRowCourse.drop 7) = some r' ∧ r'.phase = .over (.ok ⟨1, 1, .failed, 0, default⟩) ∧
    r'.SeenThrough (oneRow.history ((oneRowCourse.take 7).map .run) ++
      (running r false).history (.leave :: (oneRowCourse.drop 7).map .run)) := by
  have hgoes : ∃ r r', oneRow.steps? ((oneRowCourse.take 7).map .run) = some (.running r false) ∧
      r.steps? (oneRowCourse.drop 7) = some r' ∧
      r'.phase = .over (.ok ⟨1, 1, .failed, 0, default⟩) ∧
      ∀ a ∈ (oneRow.history ((oneRowCourse.take 7).map .run) ++
        (running r false).history (.leave :: (oneRowCourse.drop 7).map .run)).of .main,
          a.isCrash = false :=
    ⟨_, _, rfl, rfl, rfl, by decide +kernel⟩
  obtain ⟨r, r', hr, hr', hph, hcalm⟩ := hgoes
  have hjob : (oneRow.history ((oneRowCourse.take 7).map .run)).Creates ⟨1, 5, 9⟩ :=
    ⟨⟨4, 5, 9, 1⟩, List.mem_of_getElem? (i := 3) rfl⟩
  obtain ⟨_, heq, _, _, hrest⟩ := (run_outlives_client hr (.running r)).2 _ hjob
  cases heq
  exact ⟨r, r', hr, hr', hph, (hrest _ r' hr').1 rfl nofun hcalm⟩

def overdrawnRow : Dispatch :=
  new (Plan.prepare ⟨9, 5, 0, 0, "0", "key-1"⟩ .phoneLiveStatus
    ⟨100, 1000, some (Pace.maxCap + 1)⟩ (Text.utf8 "Phone Number\n081234567890\n"))
    ⟨0, false, []⟩ 0 []

/-- If the client goes away when the job of `overdrawnRow` has been created, the job is opened and
never finalized, though nothing crashes in a call: the run does nothing any more. -/
theorem not_finalized_beyond_maxCap : ∃ (es fs : List Bulk.Event) (r r' : Run),
    overdrawnRow.steps? (es.map .run) = some (.running r false) ∧
    (overdrawnRow.history (es.map .run)).Creates ⟨1, 5, 9⟩ ∧
    (running r false).steps? (.leave :: fs.map .run) = some (.running r' true) ∧
    (∀ a ∈ (r.history fs).acts, a.isCrash = false) ∧
    (r.history fs).calls = [(.main, Tracking.opening 1)] ∧
    ∀ e r'', r'.step? e = some r'' → e.isTick = true := by
  refine ⟨oneRowCourse.take 7, [.move .main default, .reply .main failing, .move .main default,
    .move .main default], _, _, rfl, ⟨⟨4, 5, 9, 1⟩, List.mem_of_getElem? (i := 3) rfl⟩, rfl,
    by decide +kernel, rfl, ?_⟩
  intro e r'' he
  cases e with
  | tick now => rfl
  | move w clock => cases w <;> cases he
  | reply w f => cases w <;> cases he
  | crash w => cases w <;> cases he
  | join i => cases he

end Dispatch

end Bulk

end Vetting
