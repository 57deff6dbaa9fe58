import Vetting.Proofs.DispatchAccount
import Vetting.Proofs.RunTotals
import Vetting.Proofs.UploadChecks

/-! # Which uploads get a job

An upload is its preparation and then, if there is a plan, its run. The preparation follows the
core's replies, so these decide whether a job is created, and a run can only begin when it was. -/

namespace Vetting.Bulk

namespace Dispatch

/-- An upload that is prepared by `t` can do `H` and come to `d`. -/
def Reaches (t : Task (Except Refusal Plan)) (H : History) (d : Dispatch) : Prop :=
  ∃ shared now journal es, (new t shared now journal).steps? es = some d ∧
    (new t shared now journal).history es = H

/-- The preparation is over: the upload has been refused, or its run has begun. -/
def Decided : Dispatch → Prop
  | .refused .. => True
  | .running .. => True
  | _ => False

/-- An upload that did `H` was prepared by `A`, after which its preparation stood at `s`, and ran
by `K`. -/
structure Parted (t : Task (Except Refusal Plan)) (H : History) (d : Dispatch) (A : List Act)
    (s : Strand (Except Refusal Plan)) (K : History) : Prop where
  history_eq : H = .solo .main A ++ K
  course : Course t A s
  run_about : About (·.isRun = true) K.acts
  run_planned : K = [] ∨ ∃ plan, s = .ended (.ok plan)
  decided : d.Decided → ∃ x, s = .ended x
  answer_eq : ∀ r, s = .ended (.error r) → ∀ a, d.answer? = some a → a = .error r

variable {t : Task (Except Refusal Plan)} {H K : History} {d : Dispatch} {A : List Act}
  {s : Strand (Except Refusal Plan)}

theorem Account.parted (h : Account t H d) : ∃ A s K, Parted t H d A s K := by
  have hnone : About (·.isRun = true) (History.acts ([] : History)) := by simp [About, History.acts]
  cases h with
  | @preparing p A hne hc =>
    refine ⟨A, _, [], (List.append_nil _).symm, hc, hnone, .inl rfl, False.elim, ?_⟩
    rintro r hr a ha
    cases ha
  | @refused p A r hc =>
    refine ⟨A, _, [], (List.append_nil _).symm, hc, hnone, .inl rfl, fun _ => ⟨_, rfl⟩, ?_⟩
    rintro r' hr a ha
    cases hr
    cases ha
    rfl
  | @stopped p A hc =>
    refine ⟨A, _, [], (List.append_nil _).symm, hc, hnone, .inl rfl, False.elim, ?_⟩
    rintro r hr a ha
    cases ha
  | @running A es r gone r₀ hc hfresh hes =>
    refine ⟨A, _, _, rfl, hc, Run.about_of_steps hfresh hes, .inr ⟨_, rfl⟩, fun _ => ⟨_, rfl⟩, ?_⟩
    rintro r' hr
    cases hr

namespace Parted

theorem mem_callsOf (h : Parted t H d A s K) {w : Who} {c : Call} (hmem : (w, .called c) ∈ H)
    (hc : c.isRun = false) : c ∈ callsOf A := by
  rw [h.history_eq] at hmem
  rcases List.mem_append.mp hmem with hA | hK
  · exact List.mem_filterMap.mpr ⟨_, (History.mem_solo.mp hA).2, rfl⟩
  · have hrun := h.run_about _ (History.mem_acts hK) c rfl
    exact absurd (hc.symm.trans hrun) (by simp)

theorem called_of_mem (h : Parted t H d A s K) {c : Call} (hc : c ∈ callsOf A) :
    (.main, .called c) ∈ H := by
  obtain ⟨a, ha, hac⟩ := List.mem_filterMap.mp hc
  have hcalled : a = .called c := by cases a <;> simp_all [Act.call?]
  subst hcalled
  rw [h.history_eq]
  exact List.mem_append_left _ (History.mem_solo.mpr ⟨rfl, ha⟩)

theorem not_run (h : Parted t H d A s K) (ht : t.Asks (·.isRun = false))
    (hs : ∀ plan, s ≠ .ended (.ok plan)) {w : Who} {c : Call} (hmem : (w, .called c) ∈ H) :
    c.isRun = false := by
  rcases h.run_planned with rfl | ⟨plan, rfl⟩
  · rw [h.history_eq, List.append_nil] at hmem
    exact h.course.about ht _ (History.mem_solo.mp hmem).2 c rfl
  · exact absurd rfl (hs plan)

theorem countP_createsJob (h : Parted t H d A s K) :
    (callsOf H.acts).countP Call.createsJob = (callsOf A).countP Call.createsJob := by
  have hrun : (callsOf K.acts).countP Call.createsJob = 0 := by
    rw [List.countP_eq_zero]
    intro c hc hcreates
    obtain ⟨a, ha, hac⟩ := List.mem_filterMap.mp hc
    have habout : a.about? = some c := by cases a <;> simp_all [Act.call?, Act.about?]
    have hisRun := h.run_about a ha c habout
    cases c <;> simp_all [Call.createsJob, Call.isRun]
  simp [h.history_eq, hrun]

end Parted

theorem decided_of_answer {a : Except Refusal Summary} (h : d.answer? = some a) : d.Decided := by
  cases d with
  | refused => trivial
  | running => trivial
  | preparing => cases h
  | stopped => cases h

namespace Parted

variable {core : Replies} {i : Identity} {p : Product} {pace : Pace} {csv : Text.Bytes}

/-- A call before the run is a check, or it creates the job of an upload that is admitted. -/
theorem check_or_creation (h : Parted (Plan.prepare i p pace csv) H d A s K)
    (hA : Follows core A) {w : Who} {c : Call} (hcall : (w, .called c) ∈ H)
    (hc : c.isRun = false) :
    c.isAdmission = true ∧ (i.quotaType = "0" → ∀ q, c ≠ .quota q) ∨
      ∃ sub rows, Admitted core i p csv sub rows ∧
        c = .createJob (jobRequest i sub rows.length) := by
  obtain ⟨cs, last, hcs, hpre, hlast⟩ := callsOf_prepare h.course hA
  rcases List.mem_append.mp (hpre.subset (h.mem_callsOf hcall hc)) with hmem | hmem
  · exact .inl ⟨hcs.admission c hmem, fun hmet q heq => hcs.unmetered hmet q (heq ▸ hmem)⟩
  · rcases hlast with rfl | ⟨sub, rows, hadm, rfl⟩
    · cases hmem
    · exact .inr ⟨sub, rows, hadm, List.mem_singleton.mp hmem⟩

theorem countP_createsJob_le (h : Parted (Plan.prepare i p pace csv) H d A s K)
    (hA : Follows core A) : (callsOf H.acts).countP Call.createsJob ≤ 1 := by
  obtain ⟨cs, last, hcs, hpre, hlast⟩ := callsOf_prepare h.course hA
  have hle := hpre.sublist.countP_le (p := Call.createsJob)
  rw [List.countP_append, hcs.countP_createsJob] at hle
  rw [h.countP_createsJob]
  rcases hlast with rfl | ⟨sub, rows, _, rfl⟩
  · exact hle.trans (by simp)
  · exact hle.trans (by simp [Call.createsJob])

/-- An upload that is refused writes nothing, and its client is told why. -/
theorem refused (h : Parted (Plan.prepare i p pace csv) H d A s K) (hA : Follows core A)
    {r : Refusal} (hr : Refused core i p csv r) :
    (∀ w c, (w, .called c) ∈ H → c.isRun = false) ∧ ∀ a, d.answer? = some a → a = .error r := by
  constructor
  · intro w c hcall
    refine h.not_run (Plan.prepare_asks i p pace csv) ?_ hcall
    intro plan hs
    cases hr.ended h.course hA hs
  · intro a ha
    obtain ⟨x, hx⟩ := h.decided (decided_of_answer ha)
    cases hr.ended h.course hA hx
    exact h.answer_eq r hx a ha

end Parted

/-- **A bulk upload is checked before anything is written.** Whatever the replies of the core, an
upload creates one job at most, and, once it is decided, creates it just if it is admitted; the job
is for all its rows. A tenant that is not metered is not asked for its quota. An upload that is
refused makes no call of a run and is told of the first check that failed; every upload is refused
or has its job created. One whose client stays can be brought to its answer. -/
theorem job_created_iff_admitted {core : Replies} {i : Identity} {p : Product} {pace : Pace}
    {csv : Text.Bytes} {H : History} {d : Dispatch} (h : Reaches (Plan.prepare i p pace csv) H d)
    (hcore : ∀ (c : Call) (o : c.Outcome), (.main, .answered c o) ∈ H → c.isRun = false →
      o = core c) :
    (callsOf H.acts).countP Call.createsJob ≤ 1 ∧
    (∀ w req, (w, .called (.createJob req)) ∈ H → ∃ sub rows, Admitted core i p csv sub rows ∧
      req = jobRequest i sub rows.length ∧
      (csv.length < 2 ^ 64 → req.total.toNat = rows.length)) ∧
    (d.Decided → ∀ sub rows, Admitted core i p csv sub rows →
      (.main, .called (.createJob (jobRequest i sub rows.length))) ∈ H) ∧
    (i.quotaType = "0" → ∀ w q, (w, .called (.quota q)) ∉ H) ∧
    (∀ r, Blocked core i p csv r → ∀ w req, (w, .called (.createJob req)) ∉ H) ∧
    (∀ r, Refused core i p csv r → (∀ w c, (w, .called c) ∈ H → c.isRun = false) ∧
      ∀ a, d.answer? = some a → a = .error r) ∧
    ((∃ r, Refused core i p csv r) ∨ ∃ sub rows job, Admitted core i p csv sub rows ∧
      core (.createJob (jobRequest i sub rows.length)) = .ok job) ∧
    (d.Present → pace.cap ≠ some 0 → ∀ clock f,
      ∃ d', Leads clock f d d' ∧ d'.answer?.isSome = true) := by
  obtain ⟨shared, now, journal, es, hes, rfl⟩ := h
  obtain ⟨A, s, K, hparts⟩ := (account_of_steps hes).parted
  have hA : Follows core A := by
    intro c o hmem
    refine hcore c o ?_ (hparts.course.about (Plan.prepare_asks i p pace csv) _ hmem c rfl)
    rw [hparts.history_eq]
    exact List.mem_append_left _ (History.mem_solo.mpr ⟨rfl, hmem⟩)
  refine ⟨hparts.countP_createsJob_le hA, ?_, ?_, ?_, ?_, fun r hr => hparts.refused hA hr,
    refused_or_created core i p csv, ?_⟩
  · intro w req hcall
    rcases hparts.check_or_creation hA hcall rfl with ⟨hcheck, _⟩ | ⟨sub, rows, hadm, heq⟩
    · cases hcheck
    · cases heq
      exact ⟨sub, rows, hadm, rfl, hadm.toNat_total⟩
  · intro hdec sub rows hadm
    obtain ⟨x, hx⟩ := hparts.decided hdec
    exact hparts.called_of_mem (hadm.created hparts.course hA hx)
  · intro hmet w q hcall
    rcases hparts.check_or_creation hA hcall rfl with ⟨_, hnone⟩ | ⟨sub, rows, _, heq⟩
    · exact hnone hmet q rfl
    · cases heq
  · intro r hblock w req hcall
    rcases hparts.check_or_creation hA hcall rfl with ⟨hcheck, _⟩ | ⟨sub, rows, hadm, _⟩
    · cases hcheck
    · exact hblock.not_admitted hadm
  · intro hpresent hcap clock f
    refine answers_of_steps hes hpresent ?_ clock f
    intro A plan hc
    rcases Plan.prepare_ended hc with ⟨_, heq, _⟩ | ⟨job, plan', heq, hprep⟩
    · cases heq
    · cases heq
      cases hprep
      exact hcap

/-- A core that knows a subscription and has `left` as its quota. -/
def leaving (left : Int64) : Replies
  | .subscription .. => .ok (⟨3, 4, default⟩ : Subscription)
  | .quota _ => .ok left
  | .createJob r => .ok (⟨1, r.member, r.company⟩ : JobRef)
  | _ => .error (.timedOut .core)

def meteredRow : Task (Except Refusal Plan) :=
  Plan.prepare ⟨9, 5, 0, 0, "1", "key-1"⟩ .phoneLiveStatus ⟨100, 1000, none⟩
    (Text.utf8 "Phone Number\n081234567890\n")

/-- Three calls and their replies, and the end of the preparation. -/
def meteredRowCourse (core : Replies) : List Event :=
  let move := Event.run (.move .main default)
  let reply := Event.run (.reply .main core)
  [move, reply, move, reply, move, reply, move, move, move]

/-- A quota of one is enough for the job of `meteredRow`. -/
theorem metered_row_gets_job : ∃ H d, Reaches meteredRow H d ∧ d.Decided ∧
    (∀ (c : Call) (o : c.Outcome), (.main, .answered c o) ∈ H → c.isRun = false →
      o = leaving 1 c) ∧
    (.main, .called (.createJob ⟨4, 5, 9, 1⟩)) ∈ H := by
  have hreach : Reaches meteredRow ((new meteredRow ⟨0, false, []⟩ 0 []).history
      (meteredRowCourse (leaving 1))) _ := ⟨_, _, _, _, rfl, rfl⟩
  refine ⟨_, _, hreach, trivial, ?_⟩
  have hcore : ∀ (c : Call) (o : c.Outcome), (.main, .answered c o) ∈
      (new meteredRow ⟨0, false, []⟩ 0 []).history (meteredRowCourse (leaving 1)) →
      c.isRun = false → o = leaving 1 c := by
    intro c o hmem _
    have hH : (new meteredRow ⟨0, false, []⟩ 0 []).history (meteredRowCourse (leaving 1)) =
        History.solo .main [.called (.subscription 9 "IDENTITY_phone_live_status"),
          .answered (.subscription 9 "IDENTITY_phone_live_status") (leaving 1 _),
          .called (.quota ⟨5, 9, 3, "1"⟩), .answered (.quota ⟨5, 9, 3, "1"⟩) (leaving 1 _),
          .called (.createJob ⟨4, 5, 9, 1⟩), .answered (.createJob ⟨4, 5, 9, 1⟩) (leaving 1 _),
          .counted (.jobCreated .phoneLiveStatus)] := rfl
    rw [hH] at hmem
    have hacts := (History.mem_solo.mp hmem).2
    simp only [List.mem_cons, reduceCtorEq, Act.answered.injEq, List.not_mem_nil, false_or,
      or_false] at hacts
    rcases hacts with ⟨rfl, ho⟩ | ⟨rfl, ho⟩ | ⟨rfl, ho⟩
    · exact eq_of_heq ho
    · exact eq_of_heq ho
    · exact eq_of_heq ho
  refine ⟨hcore, ?_⟩
  have hadm : Admitted (leaving 1) ⟨9, 5, 0, 0, "1", "key-1"⟩ .phoneLiveStatus
      (Text.utf8 "Phone Number\n081234567890\n") ⟨3, 4, default⟩ [["081234567890"]] := by
    refine ⟨rfl, ⟨by simp, ["Phone Number"], ?_⟩, fun _ => ⟨1, rfl, by decide⟩, nofun⟩
    decide +kernel
  exact (job_created_iff_admitted hreach hcore).2.2.1 trivial _ _ hadm

end Dispatch

end Vetting.Bulk
