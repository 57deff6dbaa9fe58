import Vetting.Desk.Finalizer
import Vetting.Proofs.History

/-! # Steps and histories of a finalizer

The history of a finalizer lists what was done: by the callers in their attempts, by those who note
a failure, and by those who mark the job as failed. `Finalizer.Step` says all that may happen by one
event, and what it adds to the history; of whole courses facts are proved by `steps_induction`. -/

namespace Vetting

def Act.metric? : Act → Option Metric
  | .counted m => some m
  | _ => none

/-- What was counted among acts, in order. -/
def metricsOf (A : List Act) : List Metric := A.filterMap Act.metric?

@[simp] theorem metricsOf_append (A B : List Act) :
    metricsOf (A ++ B) = metricsOf A ++ metricsOf B :=
  List.filterMap_append

theorem Strand.Step.counted_eq {α : Type} {sh sh' : Shared} {s s' : Strand α} {A : List Act}
    (h : Step sh s A s' sh') : sh'.counted = (metricsOf A).reverse ++ sh.counted := by
  cases h <;> rfl

namespace Finalizer

/-- What was done by the callers, by those who note a failure and by those who mark the job. -/
abbrev History := Vetting.History Who

namespace History

/-- What the callers did. -/
def attempts (H : History) : List (Nat × Act) :=
  H.filterMap fun
    | (.caller k, a) => some (k, a)
    | _ => none

@[simp] theorem attempts_append (H K : History) :
    attempts (H ++ K) = attempts H ++ attempts K := List.filterMap_append

@[simp] theorem attempts_solo_caller (k : Nat) (A : List Act) :
    attempts (.solo (.caller k) A) = A.map (k, ·) := by
  rw [attempts, History.solo, List.filterMap_map]
  exact congrFun List.filterMap_eq_map A

@[simp] theorem attempts_solo_failure (i : Nat) (A : List Act) :
    attempts (.solo (.failure i) A) = [] := by
  simp [attempts, History.solo]

end History

/-- The caller who comes to ask by an event. -/
def Event.caller? : Event → Option Nat
  | .request k => some k
  | _ => none

/-- The events by which an attempt goes on. -/
def Event.isAttempt : Event → Bool
  | .move _ => true
  | .reply _ => true
  | _ => false

/-- The events by which a failure is noted. -/
def Event.isFailure : Event → Bool
  | .moveFailure .. => true
  | .replyFailure .. => true
  | _ => false

theorem Event.caller?_of_isAttempt {e : Event} (h : e.isAttempt = true) : e.caller? = none := by
  cases e <;> first | rfl | cases h

theorem Event.caller?_of_isFailure {e : Event} (h : e.isFailure = true) : e.caller? = none := by
  cases e <;> first | rfl | cases h

theorem Event.isAttempt_of_isFailure {e : Event} (h : e.isFailure = true) :
    e.isAttempt = false := by
  cases e <;> first | rfl | cases h

/-- The callers who come to ask, in order. -/
def requests (es : List Event) : List Nat := es.filterMap Event.caller?

theorem requests_cons (e : Event) (es : List Event) :
    requests (e :: es) = e.caller?.toList ++ requests es := by
  cases h : e.caller? <;> simp [requests, h]

theorem requests_append (es gs : List Event) :
    requests (es ++ gs) = requests es ++ requests gs :=
  List.filterMap_append

/-- What is done by one event. -/
def acts (f : Finalizer) : Event → History
  | .request _ => []
  | .move clock =>
    match f.current with
    | some (k, s) => .solo (.caller k) (s.moveActs clock f.shared)
    | none => []
  | .reply r =>
    match f.current with
    | some (k, s) => .solo (.caller k) (s.replyActs r)
    | none => []
  | .mark => [(.marker, .tripped f.shared.latch)]
  | .fail => []
  | .moveFailure i clock =>
    match f.failures[i]? with
    | some s => .solo (.failure i) (s.moveActs clock f.shared)
    | none => []
  | .replyFailure i r =>
    match f.failures[i]? with
    | some s => .solo (.failure i) (s.replyActs r)
    | none => []
  | .tick _ => []

/-- What is done by a sequence of events. -/
def history (f : Finalizer) : List Event → History
  | [] => []
  | e :: es =>
    match f.step? e with
    | some f' => f.acts e ++ f'.history es
    | none => []

/-- The journal after someone's acts. -/
def noted (f : Finalizer) (w : Who) (A : List Act) : List (Entry Who) :=
  (callsOf A).reverse.map (⟨f.now, w, ·⟩) ++ f.journal

/-- All that may happen by one event, and what is done by it. -/
inductive Step (f : Finalizer) : Event → History → Finalizer → Prop where
  | answered {k r} : f.record = some r →
      Step f (.request k) [] { f with answers := (k, .ok r) :: f.answers }
  | started {k} : f.record = none → f.current = none → Step f (.request k) [] (f.start k)
  | queued {k x} : f.record = none → f.current = some x →
      Step f (.request k) [] { f with waiting := f.waiting ++ [k] }
  | attempt {e k s A s' sh} : e.isAttempt = true → f.current = some (k, s) →
      s.Step f.shared A s' sh → s' ≠ .crashed →
      Step f e (.solo (.caller k) A)
        { f with current := some (k, s'), shared := sh, journal := f.noted (.caller k) A }
  | finished {clock k r} : f.current = some (k, .ended r) →
      Step f (.move clock) [] (f.finish k r)
  | marked : Step f .mark [(.marker, .tripped f.shared.latch)]
      { f with shared := { f.shared with latch := true } }
  | noticed : Step f .fail [] { f with failures := f.failures ++ [.ready (Tracking.fail f.job)] }
  | failure {e i s A s' sh} : e.isFailure = true → f.failures[i]? = some s →
      s.Step f.shared A s' sh →
      Step f e (.solo (.failure i) A)
        { f with failures := f.failures.set i s', shared := sh, journal := f.noted (.failure i) A }
  | ticked {now} : Step f (.tick now) [] { f with now := now }

variable {f f₀ f' : Finalizer}

/-! ## From events to steps -/

theorem note_eq (f : Finalizer) (w : Who) {A : List Act} {c : Option Call}
    (h : callsOf A = c.toList) : f.note w c = { f with journal := f.noted w A } := by
  cases c <;> simp [noted, note, h]

theorem noted_replyActs {α : Type} (f : Finalizer) (w : Who) (r : (c : Call) → c.Outcome)
    (s : Strand α) : f.noted w (s.replyActs r) = f.journal := by
  cases s <;> rfl

theorem step_of_request {k : Nat} (h : f.step? (.request k) = some f') :
    Step f (.request k) [] f' := by
  simp only [step?] at h
  split at h
  · next r hr => cases h; exact .answered hr
  · next hr =>
    split at h
    · next hc => cases h; exact .started hr hc
    · next x hc => cases h; exact .queued hr hc

theorem step_of_move {clock : Instant} (h : f.step? (.move clock) = some f') :
    Step f (.move clock) (f.acts (.move clock)) f' := by
  simp only [step?] at h
  simp only [acts]
  split at h
  · cases h
  · next k r hc =>
    cases h
    rw [hc]
    exact .finished hc
  · next k s _ hc =>
    obtain ⟨⟨s', sh, c⟩, hs, rfl⟩ := Option.map_eq_some_iff.mp h
    obtain ⟨hstep, hcalls⟩ := Strand.step_of_move? hs
    dsimp only
    rw [note_eq f (.caller k) hcalls, hc]
    exact .attempt rfl hc hstep (Strand.ne_crashed_of_move? hs)

theorem step_of_reply {r : (c : Call) → c.Outcome} (h : f.step? (.reply r) = some f') :
    Step f (.reply r) (f.acts (.reply r)) f' := by
  simp only [step?] at h
  simp only [acts]
  split at h
  · cases h
  · next k s hc =>
    obtain ⟨s', hs, rfl⟩ := Option.map_eq_some_iff.mp h
    have hstep := Step.attempt (e := .reply r) rfl hc (Strand.step_of_reply? hs)
      (Strand.ne_crashed_of_reply? hs)
    rw [noted_replyActs] at hstep
    rw [hc]
    exact hstep

theorem step_of_moveFailure {i : Nat} {clock : Instant}
    (h : f.step? (.moveFailure i clock) = some f') :
    Step f (.moveFailure i clock) (f.acts (.moveFailure i clock)) f' := by
  obtain ⟨s, hi, h⟩ := Option.bind_eq_some_iff.mp h
  obtain ⟨⟨s', sh, c⟩, hs, rfl⟩ := Option.map_eq_some_iff.mp h
  obtain ⟨hstep, hcalls⟩ := Strand.step_of_move? hs
  simp only [acts]
  rw [note_eq f (.failure i) hcalls, hi]
  exact .failure rfl hi hstep

theorem step_of_replyFailure {i : Nat} {r : (c : Call) → c.Outcome}
    (h : f.step? (.replyFailure i r) = some f') :
    Step f (.replyFailure i r) (f.acts (.replyFailure i r)) f' := by
  obtain ⟨s, hi, h⟩ := Option.bind_eq_some_iff.mp h
  obtain ⟨s', hs, rfl⟩ := Option.map_eq_some_iff.mp h
  have hstep := Step.failure (e := .replyFailure i r) rfl hi (Strand.step_of_reply? hs)
  rw [noted_replyActs] at hstep
  simp only [acts]
  rw [hi]
  exact hstep

/-- **An event is a step** with the acts told of it. -/
theorem step_of_step? {e : Event} (h : f.step? e = some f') :
    Step f e (f.acts e) f' := by
  cases e with
  | request k => exact step_of_request h
  | move clock => exact step_of_move h
  | reply r => exact step_of_reply h
  | mark => cases h; exact .marked
  | fail => cases h; exact .noticed
  | moveFailure i clock => exact step_of_moveFailure h
  | replyFailure i r => exact step_of_replyFailure h
  | tick now =>
    simp only [step?] at h
    split at h
    · cases h; exact .ticked
    · cases h

/-! ## Whole courses -/

theorem steps?_append (f : Finalizer) (es gs : List Event) :
    f.steps? (es ++ gs) = (f.steps? es).bind (·.steps? gs) := by
  induction es generalizing f with
  | nil => rfl
  | cons e es ih =>
    simp only [List.cons_append, steps?]
    cases f.step? e with
    | none => rfl
    | some f' => exact ih f'

/-- What holds at first and is kept by every step holds of every course, with those who asked and
what was done. -/
theorem steps_induction {P : List Nat → History → Finalizer → Prop} {es : List Event}
    (h : f₀.steps? es = some f) (h₀ : P [] [] f₀)
    (hstep : ∀ {Q H f e X f'}, P Q H f → Step f e X f' →
      P (Q ++ e.caller?.toList) (H ++ X) f') :
    P (requests es) (f₀.history es) f := by
  suffices hall : ∀ es Q H f₀, f₀.steps? es = some f → P Q H f₀ →
      P (Q ++ requests es) (H ++ f₀.history es) f from hall es [] [] f₀ h h₀
  intro es
  induction es with
  | nil =>
    intro Q H f₀ h hP
    cases h
    simpa [requests, history] using hP
  | cons e es ih =>
    intro Q H f₀ h hP
    obtain ⟨f₁, he, h⟩ := Option.bind_eq_some_iff.mp h
    have hP₁ := hstep hP (step_of_step? he)
    simpa [requests_cons, history, he] using ih _ _ f₁ h hP₁

/-! ## The journal, the latch and the counts -/

/-- The calls in the journal, the latest first. -/
def told (f : Finalizer) : List (Who × Call) := f.journal.map fun e => (e.who, e.call)

/-- The journal, the latch and the counts of `f` come from what was done since `f₀`. -/
structure Recorded (f₀ : Finalizer) (H : History) (f : Finalizer) : Prop where
  told_eq : f.told = H.calls.reverse ++ f₀.told
  /-- The acts find the latch as the acts before them left it. -/
  agrees : Agrees f₀.shared.latch H.acts
  latch_eq : f.shared.latch = (f₀.shared.latch || H.acts.any Act.isTrip)
  counted_eq : f.shared.counted = (metricsOf H.acts).reverse ++ f₀.shared.counted

theorem Step.recorded {e : Event} {X : History} (h : Step f e X f') : Recorded f X f' := by
  have quiet (hj : f'.journal = f.journal) (hs : f'.shared = f.shared) : Recorded f [] f' := by
    refine ⟨?_, trivial, ?_, ?_⟩
    · simp [told, hj, History.calls, History.owned]
    · simp [hs, History.acts]
    · simp [hs, History.acts, metricsOf]
  have strand {α : Type} {s s' : Strand α} {w : Who} {A : List Act}
      (hs : s.Step f.shared A s' f'.shared) (hj : f'.journal = f.noted w A) :
      Recorded f (.solo w A) f' := by
    refine ⟨?_, ?_, ?_, ?_⟩
    · rw [History.calls_solo]
      simp [told, hj, noted, Function.comp_def]
    · rw [History.acts_solo]
      exact hs.agrees
    · rw [History.acts_solo]
      exact hs.latch_eq
    · rw [History.acts_solo]
      exact hs.counted_eq
  cases h with
  | attempt _ _ hs _ => exact strand hs rfl
  | failure _ _ hs => exact strand hs rfl
  | marked =>
    refine ⟨rfl, ⟨rfl, trivial⟩, ?_, rfl⟩
    simp [History.acts, Act.isTrip]
  | @finished _ k r hc =>
    cases r with
    | ok r => exact quiet rfl rfl
    | error e =>
      have hkept : (f.finish k (.error e)).journal = f.journal ∧
          (f.finish k (.error e)).shared = f.shared := by
        unfold finish
        cases hw : f.waiting <;> exact ⟨rfl, rfl⟩
      exact quiet hkept.1 hkept.2
  | answered | started | queued | noticed | ticked => exact quiet rfl rfl

theorem Recorded.trans {H K : History} {g : Finalizer} (h : Recorded f₀ H f)
    (hK : Recorded f K g) : Recorded f₀ (H ++ K) g where
  told_eq := by
    rw [hK.told_eq, h.told_eq, History.calls_append, List.reverse_append, List.append_assoc]
  agrees := by
    rw [History.acts_append]
    exact agrees_append.mpr ⟨h.agrees, h.latch_eq ▸ hK.agrees⟩
  latch_eq := by
    rw [hK.latch_eq, h.latch_eq, History.acts_append, List.any_append, Bool.or_assoc]
  counted_eq := by
    rw [hK.counted_eq, h.counted_eq, History.acts_append, metricsOf_append, List.reverse_append,
      List.append_assoc]

theorem recorded_of_steps {es : List Event} (h : f₀.steps? es = some f) :
    Recorded f₀ (f₀.history es) f := by
  have hfirst : Recorded f₀ [] f₀ := ⟨rfl, trivial, by simp [History.acts], rfl⟩
  exact steps_induction (P := fun _ H f => Recorded f₀ H f) h hfirst
    fun hrec hs => hrec.trans hs.recorded

end Finalizer

end Vetting
