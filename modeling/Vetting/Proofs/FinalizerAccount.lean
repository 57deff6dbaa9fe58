import Vetting.Proofs.FinalizerStep
import Vetting.Proofs.JobCourse

/-! # What a finalizer has done at any time

The attempts of the callers are made one after the other, in the order in which the callers came,
one for each caller, until one of them succeeds; its result answers the callers who wait and those
who come later. `Standing` says so of the callers' acts as a whole, with what each caller was told,
and `Account` adds what the others did: they neither close the job nor count it. -/

namespace Vetting

/-! ## What an attempt leaves behind -/

/-- The write that closes a job, when it is accepted. -/
def Act.closing? : Act → Option (UInt64 × JobUpdate)
  | .answered (.updateJob job u) (.ok _) => if u.endAt.isSome then some (job, u) else none
  | _ => none

def closingsOf (A : List Act) : List (UInt64 × JobUpdate) := A.filterMap Act.closing?

/-- The act closes no job and counts nothing. -/
def Act.Quiet (a : Act) : Prop := a.closing? = none ∧ a.metric? = none

@[simp] theorem closingsOf_append (A B : List Act) :
    closingsOf (A ++ B) = closingsOf A ++ closingsOf B :=
  List.filterMap_append

theorem closingsOf_quiet {A : List Act} (h : ∀ a ∈ A, a.Quiet) : closingsOf A = [] :=
  List.filterMap_eq_nil_iff.mpr fun a ha => (h a ha).1

theorem metricsOf_quiet {A : List Act} (h : ∀ a ∈ A, a.Quiet) : metricsOf A = [] :=
  List.filterMap_eq_nil_iff.mpr fun a ha => (h a ha).2

theorem quiet_of_isSilent {a : Act} (h : a.isSilent = true) : a.Quiet := by
  cases a <;> first | exact ⟨rfl, rfl⟩ | cases h

theorem quiet_of_visible {A : List Act} (h : ∀ a ∈ visible A, a.Quiet) : ∀ a ∈ A, a.Quiet := by
  intro a ha
  cases hs : a.isSilent with
  | true => exact quiet_of_isSilent hs
  | false => exact h a ((mem_visible hs).mpr ha)

theorem closingsOf_visible (A : List Act) : closingsOf (visible A) = closingsOf A := by
  induction A with
  | nil => rfl
  | cons a A ih => cases a <;> simp_all [closingsOf, Act.isSilent, Act.closing?, List.filterMap_cons]

theorem metricsOf_visible (A : List Act) : metricsOf (visible A) = metricsOf A := by
  induction A with
  | nil => rfl
  | cons a A ih => cases a <;> simp_all [metricsOf, Act.isSilent, Act.metric?, List.filterMap_cons]

namespace Tracking

def Final.written (r : Final) : UInt64 × JobUpdate :=
  (r.job, ⟨some r.successCount, r.status, some r.endAt⟩)

variable {job total : UInt64} {A V : List Act}

theorem Closed.quiet {e : ServiceError} (h : Closed job total V (.error e)) :
    ∀ a ∈ V, a.Quiet := by
  intro a ha
  cases h with
  | unreadable =>
    simp only [List.mem_cons, List.not_mem_nil, or_false] at ha
    rcases ha with rfl | rfl <;> exact ⟨rfl, rfl⟩
  | unwritten =>
    simp only [List.mem_cons, List.not_mem_nil, or_false] at ha
    rcases ha with rfl | rfl | rfl | rfl | rfl <;> exact ⟨rfl, rfl⟩

theorem Closed.leaves {r : Final} (h : Closed job total V (.ok r)) :
    closingsOf V = [r.written] ∧ metricsOf V = [.jobFinalized r.status] := by
  cases h with
  | written => exact ⟨rfl, rfl⟩

/-- However far an attempt has come, it has written the job at most once and counted it at most
once. -/
theorem Closing.leaves {s : Strand (Except ServiceError Final)} (h : Closing job total V s) :
    (closingsOf V).length ≤ 1 ∧ (metricsOf V).length ≤ 1 := by
  cases h with
  | written => exact ⟨Nat.le_refl 1, Nat.zero_le 1⟩
  | closed => exact ⟨Nat.le_refl 1, Nat.le_refl 1⟩
  | _ => exact ⟨Nat.zero_le 1, Nat.zero_le 1⟩

theorem fail_quiet {s : Strand Unit} (h : Course (fail job) A s) : ∀ a ∈ A, a.Quiet := by
  intro a ha
  cases h with
  | rest => cases ha
  | trip before h =>
    cases before with
    | true =>
      obtain ⟨rfl, _⟩ := h.of_done
      rw [List.mem_singleton.mp ha]
      exact ⟨rfl, rfl⟩
    | false =>
      cases h with
      | rest =>
        rw [List.mem_singleton.mp ha]
        exact ⟨rfl, rfl⟩
      | waiting =>
        simp only [List.mem_cons, List.not_mem_nil, or_false] at ha
        rcases ha with rfl | rfl <;> exact ⟨rfl, rfl⟩
      | crashed =>
        simp only [List.mem_cons, List.not_mem_nil, or_false] at ha
        rcases ha with rfl | rfl | rfl <;> exact ⟨rfl, rfl⟩
      | call o h =>
        obtain ⟨rfl, _⟩ := h.of_done
        simp only [List.mem_cons, List.not_mem_nil, or_false] at ha
        rcases ha with rfl | rfl | rfl
        · exact ⟨rfl, rfl⟩
        · exact ⟨rfl, rfl⟩
        · cases o <;> exact ⟨rfl, rfl⟩

end Tracking

namespace Finalizer

/-- An attempt from its first call to its end. -/
structure Attempt where
  caller : Nat
  acts : List Act
  result : Except ServiceError Tracking.Final

namespace Attempt

def history (a : Attempt) : List (Nat × Act) := a.acts.map (a.caller, ·)

def answer (a : Attempt) : Nat × Except ServiceError Tracking.Final := (a.caller, a.result)

/-- One of the two calls of the attempt failed, and its result is this failure. -/
def Failed (job total : UInt64) (a : Attempt) : Prop :=
  ∃ e, a.result = .error e ∧ Tracking.Closed job total (visible a.acts) (.error e)

/-- The attempt wrote the job as `r`. -/
def Succeeded (job total : UInt64) (r : Tracking.Final) (a : Attempt) : Prop :=
  a.result = .ok r ∧ Tracking.Closed job total (visible a.acts) (.ok r)

end Attempt

/-- Where a finalizer stands when the callers `Q` have come, in this order, and have done `X`. -/
inductive Standing (job total : UInt64) (f : Finalizer) (Q : List Nat) (X : List (Nat × Act)) :
    Prop where
  /-- All attempts have failed, and no caller waits. -/
  | idle (failed : List Attempt) : f.record = none → f.current = none → f.waiting = [] →
      (∀ a ∈ failed, a.Failed job total) → f.answers.reverse = failed.map Attempt.answer →
      Q = failed.map Attempt.caller → X = failed.flatMap Attempt.history → Standing job total f Q X
  /-- After the attempts that failed, caller `k` makes one, and the callers after `k` wait. -/
  | attempting (failed : List Attempt) {k s A} : f.record = none → f.current = some (k, s) →
      s ≠ .crashed → Course (Tracking.attempt job total) A s →
      (∀ a ∈ failed, a.Failed job total) → f.answers.reverse = failed.map Attempt.answer →
      Q = failed.map Attempt.caller ++ k :: f.waiting →
      X = failed.flatMap Attempt.history ++ A.map (k, ·) → Standing job total f Q X
  /-- After the attempts that failed one succeeded; the callers `later` made none and were told the
  same. -/
  | finalized (failed : List Attempt) (last : Attempt) (later : List Nat) {r} :
      f.record = some r → f.current = none → f.waiting = [] →
      (∀ a ∈ failed, a.Failed job total) → last.Succeeded job total r →
      f.answers.reverse = failed.map Attempt.answer ++ last.answer :: later.map (·, .ok r) →
      Q = failed.map Attempt.caller ++ last.caller :: later →
      X = failed.flatMap Attempt.history ++ last.history → Standing job total f Q X

variable {job total : UInt64} {f f' : Finalizer} {Q : List Nat} {X : List (Nat × Act)}

namespace Standing

theorem congr (h : Standing job total f Q X) (hrecord : f'.record = f.record)
    (hcurrent : f'.current = f.current) (hwaiting : f'.waiting = f.waiting)
    (hanswers : f'.answers = f.answers) : Standing job total f' Q X := by
  cases h with
  | idle failed hr hc hw hf ha hQ hX =>
    exact .idle failed (hrecord ▸ hr) (hcurrent ▸ hc) (hwaiting ▸ hw) hf (hanswers ▸ ha) hQ hX
  | attempting failed hr hc hne hcourse hf ha hQ hX =>
    exact .attempting failed (hrecord ▸ hr) (hcurrent ▸ hc) hne hcourse hf (hanswers ▸ ha)
      (hwaiting ▸ hQ) hX
  | finalized failed last later hr hc hw hf hlast ha hQ hX =>
    exact .finalized failed last later (hrecord ▸ hr) (hcurrent ▸ hc) (hwaiting ▸ hw) hf hlast
      (hanswers ▸ ha) hQ hX

theorem under_way (h : Standing job total f Q X) {k : Nat}
    {s : Strand (Except ServiceError Tracking.Final)} (hcurrent : f.current = some (k, s)) :
    ∃ (failed : List Attempt) (A : List Act), f.record = none ∧ s ≠ .crashed ∧
      Course (Tracking.attempt job total) A s ∧ (∀ a ∈ failed, a.Failed job total) ∧
      f.answers.reverse = failed.map Attempt.answer ∧
      Q = failed.map Attempt.caller ++ k :: f.waiting ∧
      X = failed.flatMap Attempt.history ++ A.map (k, ·) := by
  cases h with
  | idle _ _ hc => rw [hcurrent] at hc; cases hc
  | @attempting failed k' s' A hr hc hne hcourse hf ha hQ hX =>
    rw [hcurrent] at hc
    cases hc
    exact ⟨failed, A, hr, hne, hcourse, hf, ha, hQ, hX⟩
  | finalized _ _ _ _ hc => rw [hcurrent] at hc; cases hc

theorem current_of_record (h : Standing job total f Q X) {r : Tracking.Final}
    (hrecord : f.record = some r) : f.current = none := by
  cases h with
  | idle _ hr => rw [hrecord] at hr; cases hr
  | attempting _ hr => rw [hrecord] at hr; cases hr
  | finalized _ _ _ _ hc => exact hc

theorem answered (h : Standing job total f Q X) {k : Nat} {r : Tracking.Final}
    (hrecord : f.record = some r) :
    Standing job total { f with answers := (k, .ok r) :: f.answers } (Q ++ [k]) X := by
  cases h with
  | idle _ hr => rw [hrecord] at hr; cases hr
  | attempting _ hr => rw [hrecord] at hr; cases hr
  | finalized failed last later hr hc hw hf hlast ha hQ hX =>
    rw [hrecord] at hr
    cases hr
    exact .finalized failed last (later ++ [k]) hrecord hc hw hf hlast (by simp [ha]) (by simp [hQ])
      hX

theorem started (h : Standing job total f Q X) (hjob : f.job = job) (htotal : f.total = total)
    {k : Nat} (hrecord : f.record = none) (hcurrent : f.current = none) :
    Standing job total (f.start k) (Q ++ [k]) X := by
  cases h with
  | idle failed hr hc hw hf ha hQ hX =>
    subst hjob htotal
    exact .attempting failed hr rfl nofun (.rest _) hf ha (by simp [hQ, start, hw]) (by simp [hX])
  | attempting _ _ hc => rw [hcurrent] at hc; cases hc
  | finalized _ _ _ hr => rw [hrecord] at hr; cases hr

theorem queued (h : Standing job total f Q X) {k : Nat}
    {x : Nat × Strand (Except ServiceError Tracking.Final)} (hcurrent : f.current = some x) :
    Standing job total { f with waiting := f.waiting ++ [k] } (Q ++ [k]) X := by
  obtain ⟨failed, A, hr, hne, hcourse, hf, ha, hQ, hX⟩ := h.under_way hcurrent
  exact .attempting failed hr hcurrent hne hcourse hf ha (by simp [hQ]) hX

theorem attempt (h : Standing job total f Q X) {k : Nat} {A : List Act}
    {s s' : Strand (Except ServiceError Tracking.Final)} {sh : Shared}
    (hcurrent : f.current = some (k, s)) (hs : s.Step f.shared A s' sh) (hne : s' ≠ .crashed)
    (hrecord' : f'.record = f.record) (hcurrent' : f'.current = some (k, s'))
    (hwaiting' : f'.waiting = f.waiting) (hanswers' : f'.answers = f.answers) :
    Standing job total f' Q (X ++ A.map (k, ·)) := by
  obtain ⟨failed, A₀, hr, _, hcourse, hf, ha, hQ, hX⟩ := h.under_way hcurrent
  exact .attempting failed (hrecord' ▸ hr) hcurrent' hne (hcourse.step hs) hf (hanswers' ▸ ha)
    (hwaiting' ▸ hQ) (by simp [hX])

/-- The attempt under way comes to its end: with it either all who wait are answered, or the next
one of them makes an attempt. -/
theorem finished (h : Standing job total f Q X) (hjob : f.job = job) (htotal : f.total = total)
    {k : Nat} {r : Except ServiceError Tracking.Final} (hcurrent : f.current = some (k, .ended r)) :
    Standing job total (f.finish k r) Q X := by
  obtain ⟨failed, A, hr, _, hcourse, hf, ha, hQ, hX⟩ := h.under_way hcurrent
  have hclosed := (Tracking.closing_of_course hcourse).of_ended
  cases r with
  | ok r =>
    exact .finalized failed ⟨k, A, .ok r⟩ f.waiting rfl rfl rfl hf ⟨rfl, hclosed⟩
      (by simp [finish, ha, Attempt.answer]) hQ hX
  | error e =>
    have hfailed : ∀ a ∈ failed ++ [⟨k, A, .error e⟩], a.Failed job total := by
      intro a hmem
      rcases List.mem_append.mp hmem with hmem | hmem
      · exact hf a hmem
      · rw [List.mem_singleton.mp hmem]
        exact ⟨e, rfl, hclosed⟩
    unfold finish
    cases hw : f.waiting with
    | nil =>
      rw [hw] at hQ
      exact .idle (failed ++ [⟨k, A, .error e⟩]) hr rfl rfl hfailed (by simp [ha, Attempt.answer])
        (by simp [hQ]) (by simp [hX, Attempt.history])
    | cons next rest =>
      rw [hw] at hQ
      subst hjob htotal
      exact .attempting (failed ++ [⟨k, A, .error e⟩]) hr rfl nofun (.rest _) hfailed
        (by simp [start, ha, Attempt.answer]) (by simp [start, hQ])
        (by simp [hX, Attempt.history])

end Standing

/-- All that is known of a finalizer of `job` when the callers `Q` have come and `H` has been
done. -/
structure Account (job total : UInt64) (Q : List Nat) (H : History) (f : Finalizer) : Prop where
  job_eq : f.job = job
  total_eq : f.total = total
  standing : Standing job total f Q H.attempts
  failures : ∀ s ∈ f.failures, ∃ A, Course (Tracking.fail job) A s
  /-- Nobody but the callers closes the job or counts it. -/
  others : ∀ x ∈ H, (∃ k, x.1 = .caller k) ∨ x.2.Quiet

variable {H : History}

theorem account_new (job total : UInt64) (shared : Shared) (now : Nat) :
    Account job total [] [] (new job total shared now) where
  job_eq := rfl
  total_eq := rfl
  standing := .idle [] rfl rfl rfl (by simp) rfl rfl rfl
  failures := by simp [new]
  others := by simp

/-- **Every step keeps the account.** -/
theorem Account.step (h : Account job total Q H f) {e : Event} {X : History} (hs : Step f e X f') :
    Account job total (Q ++ e.caller?.toList) (H ++ X) f' := by
  have quiet {Q' : List Nat} (hjob : f'.job = f.job) (htotal : f'.total = f.total)
      (hfail : f'.failures = f.failures) (hstand : Standing job total f' Q' H.attempts) :
      Account job total Q' (H ++ []) f' := by
    rw [List.append_nil]
    exact ⟨hjob.trans h.job_eq, htotal.trans h.total_eq, hstand, hfail ▸ h.failures, h.others⟩
  cases hs with
  | answered hr => exact quiet rfl rfl rfl (h.standing.answered hr)
  | started hr hc => exact quiet rfl rfl rfl (h.standing.started h.job_eq h.total_eq hr hc)
  | queued _ hc => exact quiet rfl rfl rfl (h.standing.queued hc)
  | @attempt e k s A s' sh he hc hs hne =>
    rw [Event.caller?_of_isAttempt he, Option.toList_none, List.append_nil]
    refine ⟨h.job_eq, h.total_eq, ?_, h.failures, ?_⟩
    · rw [History.attempts_append, History.attempts_solo_caller]
      exact h.standing.attempt hc hs hne rfl rfl rfl rfl
    · intro x hx
      rcases List.mem_append.mp hx with hx | hx
      · exact h.others x hx
      · exact .inl ⟨k, (History.mem_solo.mp hx).1⟩
  | @finished _ k r hc =>
    have hstand := h.standing.finished h.job_eq h.total_eq hc
    have hkept : (f.finish k r).job = f.job ∧ (f.finish k r).total = f.total ∧
        (f.finish k r).failures = f.failures := by
      cases r with
      | ok r => exact ⟨rfl, rfl, rfl⟩
      | error e =>
        unfold finish
        cases f.waiting <;> exact ⟨rfl, rfl, rfl⟩
    simp only [Event.caller?, Option.toList_none, List.append_nil Q]
    exact quiet hkept.1 hkept.2.1 hkept.2.2 hstand
  | marked =>
    simp only [Event.caller?, Option.toList_none, List.append_nil]
    refine ⟨h.job_eq, h.total_eq, ?_, h.failures, ?_⟩
    · rw [History.attempts_append]
      exact List.append_nil _ ▸ h.standing.congr rfl rfl rfl rfl
    · intro x hx
      rcases List.mem_append.mp hx with hx | hx
      · exact h.others x hx
      · rw [List.mem_singleton.mp hx]
        exact .inr ⟨rfl, rfl⟩
  | noticed =>
    simp only [Event.caller?, Option.toList_none, List.append_nil]
    refine ⟨h.job_eq, h.total_eq, h.standing.congr rfl rfl rfl rfl, ?_, h.others⟩
    intro s hmem
    rcases List.mem_append.mp hmem with hmem | hmem
    · exact h.failures s hmem
    · rw [List.mem_singleton.mp hmem, h.job_eq]
      exact ⟨[], .rest _⟩
  | @failure e i s A s' sh he hi hs =>
    obtain ⟨A₀, hcourse⟩ := h.failures s (List.mem_of_getElem? hi)
    have hcourse' := hcourse.step hs
    rw [Event.caller?_of_isFailure he, Option.toList_none, List.append_nil]
    refine ⟨h.job_eq, h.total_eq, ?_, ?_, ?_⟩
    · rw [History.attempts_append, History.attempts_solo_failure, List.append_nil]
      exact h.standing.congr rfl rfl rfl rfl
    · intro t ht
      rcases List.mem_or_eq_of_mem_set ht with ht | rfl
      · exact h.failures t ht
      · exact ⟨A₀ ++ A, hcourse'⟩
    · intro x hx
      rcases List.mem_append.mp hx with hx | hx
      · exact h.others x hx
      · have hmem := List.mem_append_right A₀ (History.mem_solo.mp hx).2
        exact .inr (Tracking.fail_quiet hcourse' x.2 hmem)
  | ticked =>
    simp only [Event.caller?, Option.toList_none, List.append_nil Q]
    exact quiet rfl rfl rfl (h.standing.congr rfl rfl rfl rfl)

theorem account_of_steps {shared : Shared} {now : Nat} {es : List Event}
    (h : (new job total shared now).steps? es = some f) :
    Account job total (requests es) ((new job total shared now).history es) f :=
  steps_induction (P := fun Q H f => Account job total Q H f) h (account_new job total shared now)
    fun hacc hs => hacc.step hs

end Finalizer

end Vetting
