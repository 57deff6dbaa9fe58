import Vetting.Bulk.Run
import Vetting.Proofs.History
import Vetting.Proofs.RowCourse

/-! # Steps and histories of a bulk run

The history of a run lists what its strands did, each act with the strand that did it. `Run.Step`
says all that a run may do by one event, with what the event adds to the history; facts about runs
are proved from its cases, and of whole runs by `steps_induction`. -/

namespace Vetting.Bulk

/-- What the strands of a run did. -/
abbrev History := Vetting.History Who

namespace History

@[simp] theorem of_main_row (A : List Act) (i : Nat) :
    (History.solo Who.main A).of (.row i) = [] :=
  History.of_solo_of_ne (by nofun) A

/-- What a row did is not among what the main strand did before and after the rows. -/
theorem of_row_woven (A : List Act) (R : History) (B : List Act) (i : Nat) :
    History.of (.solo .main A ++ R ++ .solo .main B) (.row i) = R.of (.row i) := by
  simp

/-- The acts of a run are those of its main strand, before and after the rows, and of its rows. -/
theorem mem_woven {x : Who × Act} {A B : List Act} {R : History} :
    x ∈ History.solo .main A ++ R ++ .solo .main B ↔
      x.1 = .main ∧ x.2 ∈ A ∨ x ∈ R ∨ x.1 = .main ∧ x.2 ∈ B := by
  rw [List.mem_append, List.mem_append, History.mem_solo, History.mem_solo, or_assoc]

end History

def Event.isTick : Event → Bool
  | .tick _ => true
  | _ => false

namespace Run

/-- A run that has done nothing yet, whoever has made calls before it. -/
structure Fresh (r : Run) : Prop where
  phase_eq : r.phase = .starting (.ready (Tracking.start r.plan.brief.job))
  rows_eq : r.rows = []
  permits_eq : r.permits = r.plan.pace.cap
  latch_eq : r.shared.latch = false

theorem fresh_new (plan : Plan) (issued : UInt64) (now : Nat) : (new plan issued now).Fresh :=
  ⟨rfl, rfl, rfl, rfl⟩

/-- What the strands do by one event. -/
def acts (r : Run) : Event → History
  | .move .main clock =>
    match r.phase with
    | .starting s => .solo .main (s.moveActs clock r.shared)
    | .finalizing s => .solo .main (s.moveActs clock r.shared)
    | _ => []
  | .move (.row i) clock =>
    match r.rows[i]? with
    | some row => .solo (.row i) (row.strand.moveActs clock r.shared)
    | none => []
  | .reply .main f =>
    match r.phase with
    | .starting s => .solo .main (s.replyActs f)
    | .finalizing s => .solo .main (s.replyActs f)
    | _ => []
  | .reply (.row i) f =>
    match r.rows[i]? with
    | some row => .solo (.row i) (row.strand.replyActs f)
    | none => []
  | .crash .main =>
    match r.phase with
    | .starting s => .solo .main s.crashActs
    | .finalizing s => .solo .main s.crashActs
    | _ => []
  | .crash (.row i) =>
    match r.rows[i]? with
    | some row => .solo (.row i) row.strand.crashActs
    | none => []
  | .join _ => []
  | .tick _ => []

/-- What the strands do by a sequence of events. -/
def history (r : Run) : List Event → History
  | [] => []
  | e :: es =>
    match r.step? e with
    | some r' => r.acts e ++ r'.history es
    | none => []

/-- The journal after a strand's acts. -/
def noted (r : Run) (w : Who) (A : List Act) : List (Entry Who) :=
  (callsOf A).reverse.map (⟨r.now, w, ·⟩) ++ r.journal

/-- How many permits are left when a row has taken one. -/
inductive Grant : Option Nat → Option Nat → Prop where
  | unlimited : Grant none none
  | taken (n : Nat) : Grant (some (n + 1)) (some n)

end Run

/-- What a row counts as when the main strand takes note of its end. -/
def RowState.metrics (row : RowState) : List Metric :=
  match row.strand with
  | .ended result => result.fault.toList.map .rowFailed
  | _ => []

namespace Run

/-- All that a run may do by one event that is not the clock's, and what it adds to the history. -/
inductive Step (r : Run) : History → Run → Prop where
  | start {s A s' sh} : r.phase = .starting s → s.Step r.shared A s' sh → s' ≠ .crashed →
      Step r (.solo .main A)
        { r with phase := .starting s', shared := sh, journal := r.noted .main A }
  | startCrash {s A} : r.phase = .starting s → s.Step r.shared A .crashed r.shared →
      Step r (.solo .main A) { r with phase := .crashed }
  | opened {o} : r.phase = .starting (.ended o) → r.plan.pace.capFits = true →
      Step r [] { r with phase := .admitting r.plan.submissions }
  | overdrawn {o} : r.phase = .starting (.ended o) → r.plan.pace.capFits = false →
      Step r [] { r with phase := .crashed }
  | passed {s rest g} : r.phase = .admitting (s :: rest) → r.gate.decide r.now = .pass g →
      Step r [] { r with gate := g, phase := .acquiring (s :: rest) }
  | held {s rest due} : r.phase = .admitting (s :: rest) → r.gate.decide r.now = .wait due →
      Step r [] { r with phase := .pausing due (s :: rest) }
  | released {due rest} : r.phase = .pausing due rest → due ≤ r.now →
      Step r [] { r with gate := r.gate.restart r.now, phase := .acquiring rest }
  | spawned {s rest p} : r.phase = .acquiring (s :: rest) → Grant r.permits p →
      Step r [] ({ r with permits := p }.spawn s rest)
  | allStarted : r.phase = .admitting [] ∨ r.phase = .acquiring [] →
      Step r [] { r with phase := .joining }
  | joined {i row} : r.phase = .joining → r.rows[i]? = some row → row.joined = false →
      row.strand.isOver = true →
      Step r [] { r with
        rows := r.rows.set i { row with joined := true }
        shared := { r.shared with counted := row.metrics ++ r.shared.counted } }
  | allJoined : r.phase = .joining → r.rows.all (·.joined) = true →
      Step r [] { r with
        phase := .finalizing (.ready (Tracking.attempt r.plan.brief.job r.plan.brief.total)) }
  | finish {s A s' sh} : r.phase = .finalizing s → s.Step r.shared A s' sh → s' ≠ .crashed →
      Step r (.solo .main A)
        { r with phase := .finalizing s', shared := sh, journal := r.noted .main A }
  | finishCrash {s A} : r.phase = .finalizing s → s.Step r.shared A .crashed r.shared →
      Step r (.solo .main A) { r with phase := .crashed }
  | finished {f} : r.phase = .finalizing (.ended f) → Step r [] { r with phase := .over f }
  | row {i row A s' sh} : r.rows[i]? = some row → row.strand.Step r.shared A s' sh →
      Step r (.solo (.row i) A)
        { r.setStrand i row s' with shared := sh, journal := r.noted (.row i) A }

variable {r r' : Run} {H : History}

/-! ## From events to steps -/

theorem note_eq (r : Run) (w : Who) {A : List Act} {c : Option Call} (h : callsOf A = c.toList) :
    r.note w c = { r with journal := r.noted w A } := by
  cases c <;> simp [noted, note, h]

theorem step_of_moveMain? {clock : Instant} (h : r.moveMain? clock = some r') :
    Step r (r.acts (.move .main clock)) r' := by
  unfold moveMain? at h
  simp only [acts]
  split at h
  · next o hph =>
    cases h
    rw [hph]
    cases hcap : r.plan.pace.capFits with
    | true => exact .opened hph hcap
    | false => exact .overdrawn hph hcap
  · next s _ hph =>
    obtain ⟨⟨s', sh, c⟩, hs, rfl⟩ := Option.map_eq_some_iff.mp h
    obtain ⟨hstep, hc⟩ := Strand.step_of_move? hs
    dsimp only
    rw [note_eq r .main hc, hph]
    exact .start hph hstep (Strand.ne_crashed_of_move? hs)
  · next hph =>
    cases h
    rw [hph]
    exact .allStarted (.inl hph)
  · next s rest hph =>
    rw [hph]
    split at h
    · next g hg => cases h; exact .passed hph hg
    · next due hg => cases h; exact .held hph hg
  · next due rest hph =>
    rw [hph]
    split at h
    · next hdue => cases h; exact .released hph hdue
    · cases h
  · next hph =>
    cases h
    rw [hph]
    exact .allStarted (.inr hph)
  · next s rest hph =>
    rw [hph]
    split at h
    · next hp => cases h; exact .spawned hph (hp ▸ .unlimited)
    · cases h
    · next n hp => cases h; exact .spawned hph (hp ▸ .taken n)
  · next hph =>
    rw [hph]
    split at h
    · next hj => cases h; exact .allJoined hph hj
    · cases h
  · next f hph =>
    cases h
    rw [hph]
    exact .finished hph
  · next s _ hph =>
    obtain ⟨⟨s', sh, c⟩, hs, rfl⟩ := Option.map_eq_some_iff.mp h
    obtain ⟨hstep, hc⟩ := Strand.step_of_move? hs
    dsimp only
    rw [note_eq r .main hc, hph]
    exact .finish hph hstep (Strand.ne_crashed_of_move? hs)
  · cases h
  · cases h

theorem setStrand_journal (r : Run) (i : Nat) (row : RowState) (s : Strand Row.Result)
    (J : List (Entry Who)) : { r with journal := J }.setStrand i row s =
      { r.setStrand i row s with journal := J } := by
  simp only [setStrand, release]
  split <;> rfl

theorem setStrand_eq (r : Run) (i : Nat) (row : RowState) (s : Strand Row.Result) :
    { r.setStrand i row s with shared := r.shared, journal := r.journal } =
      r.setStrand i row s := by
  simp only [setStrand, release]
  split <;> rfl

theorem step_of_moveRow? {i : Nat} {clock : Instant} (h : r.moveRow? i clock = some r') :
    Step r (r.acts (.move (.row i) clock)) r' := by
  obtain ⟨row, hrow, h⟩ := Option.bind_eq_some_iff.mp h
  obtain ⟨⟨s', sh, c⟩, hs, rfl⟩ := Option.map_eq_some_iff.mp h
  obtain ⟨hstep, hc⟩ := Strand.step_of_move? hs
  simp only [acts, hrow]
  rw [note_eq r (.row i) hc]
  rw [setStrand_journal]
  exact .row hrow hstep

theorem noted_replyActs {α : Type} (r : Run) (w : Who) (f : (c : Call) → c.Outcome)
    (s : Strand α) : r.noted w (s.replyActs f) = r.journal := by
  cases s <;> rfl

theorem noted_crashActs {α : Type} (r : Run) (w : Who) (s : Strand α) :
    r.noted w s.crashActs = r.journal := by
  cases s <;> rfl

theorem step_of_reply {w : Who} {f : (c : Call) → c.Outcome}
    (h : r.step? (.reply w f) = some r') : Step r (r.acts (.reply w f)) r' := by
  cases w with
  | main =>
    simp only [step?] at h
    split at h
    · next s hph =>
      obtain ⟨s', hs, rfl⟩ := Option.map_eq_some_iff.mp h
      have hstep := Step.start hph (Strand.step_of_reply? hs) (Strand.ne_crashed_of_reply? hs)
      rw [noted_replyActs] at hstep
      simpa only [acts, hph] using hstep
    · next s hph =>
      obtain ⟨s', hs, rfl⟩ := Option.map_eq_some_iff.mp h
      have hstep := Step.finish hph (Strand.step_of_reply? hs) (Strand.ne_crashed_of_reply? hs)
      rw [noted_replyActs] at hstep
      simpa only [acts, hph] using hstep
    · cases h
  | row i =>
    obtain ⟨row, hrow, h⟩ := Option.bind_eq_some_iff.mp h
    obtain ⟨s', hs, rfl⟩ := Option.map_eq_some_iff.mp h
    have hstep := Step.row hrow (Strand.step_of_reply? hs)
    rw [noted_replyActs, setStrand_eq] at hstep
    simp only [acts, hrow]
    exact hstep

theorem step_of_crash {w : Who} (h : r.step? (.crash w) = some r') :
    Step r (r.acts (.crash w)) r' := by
  cases w with
  | main =>
    simp only [step?] at h
    split at h
    · next s hph =>
      obtain ⟨s', hs, rfl⟩ := Option.map_eq_some_iff.mp h
      obtain ⟨hstep, rfl⟩ := Strand.step_of_crash? hs
      simpa only [acts, hph] using Step.startCrash hph hstep
    · next s hph =>
      obtain ⟨s', hs, rfl⟩ := Option.map_eq_some_iff.mp h
      obtain ⟨hstep, rfl⟩ := Strand.step_of_crash? hs
      simpa only [acts, hph] using Step.finishCrash hph hstep
    · cases h
  | row i =>
    obtain ⟨row, hrow, h⟩ := Option.bind_eq_some_iff.mp h
    obtain ⟨s', hs, rfl⟩ := Option.map_eq_some_iff.mp h
    have hstep := Step.row hrow (Strand.step_of_crash? hs).1
    rw [noted_crashActs, setStrand_eq] at hstep
    simp only [acts, hrow]
    exact hstep

theorem step_of_join {i : Nat} (h : r.step? (.join i) = some r') : Step r [] r' := by
  simp only [step?] at h
  split at h
  · next hph =>
    obtain ⟨row, hrow, h⟩ := Option.bind_eq_some_iff.mp h
    split at h
    · cases h
    · next hj =>
      have hj : row.joined = false := by simpa using hj
      have hjoin (hover : row.strand.isOver = true) (ms : List Metric) (hms : row.metrics = ms) :=
        hms ▸ Step.joined hph hrow hj hover
      split at h
      · next result hs =>
        have hover : row.strand.isOver = true := by rw [hs]; rfl
        cases hf : result.fault with
        | none =>
          rw [hf] at h
          cases h
          exact hjoin hover [] (by simp [RowState.metrics, hs, hf])
        | some f =>
          rw [hf] at h
          cases h
          exact hjoin hover [.rowFailed f] (by simp [RowState.metrics, hs, hf])
      · next hs =>
        cases h
        exact hjoin (by rw [hs]; rfl) [] (by simp [RowState.metrics, hs])
      · cases h
  · cases h

/-- **An event is a step** with the acts told of it, unless it is the clock's. -/
theorem step_of_step? {e : Event} (h : r.step? e = some r') (he : e.isTick = false) :
    Step r (r.acts e) r' := by
  cases e with
  | move w clock =>
    cases w with
    | main => exact step_of_moveMain? h
    | row i => exact step_of_moveRow? h
  | reply w f => exact step_of_reply h
  | crash w => exact step_of_crash h
  | join i => exact step_of_join h
  | tick now => cases he

theorem eq_of_tick {now : Nat} (h : r.step? (.tick now) = some r') :
    r' = { r with now := now } ∧ r.now ≤ now := by
  simp only [step?] at h
  split at h
  · next hnow => cases h; exact ⟨rfl, hnow⟩
  · cases h

/-! ## Whole runs -/

theorem steps?_append (r : Run) (es fs : List Event) :
    r.steps? (es ++ fs) = (r.steps? es).bind (·.steps? fs) := by
  induction es generalizing r with
  | nil => rfl
  | cons e es ih =>
    simp only [List.cons_append, steps?]
    cases r.step? e with
    | none => rfl
    | some r' => exact ih r'

theorem history_append {es : List Event} (h : r.steps? es = some r') (fs : List Event) :
    r.history (es ++ fs) = r.history es ++ r'.history fs := by
  induction es generalizing r with
  | nil => cases h; rfl
  | cons e es ih =>
    obtain ⟨r₁, he, h⟩ := Option.bind_eq_some_iff.mp h
    simp [history, he, ih h]

/-- What holds at first, and is kept by every step and by a clock that does not go back, holds of
every run, with its history. -/
theorem timed_steps_induction {P : History → Run → Prop} {r₀ : Run} {es : List Event}
    (h : r₀.steps? es = some r) (h₀ : P [] r₀)
    (htick : ∀ {H r now}, P H r → r.now ≤ now → P H { r with now := now })
    (hstep : ∀ {H r A r'}, P H r → Step r A r' → P (H ++ A) r') : P (r₀.history es) r := by
  suffices hall : ∀ es H r₀, r₀.steps? es = some r → P H r₀ → P (H ++ r₀.history es) r from
    hall es [] r₀ h h₀
  intro es
  induction es with
  | nil =>
    intro H r₀ h hP
    cases h
    simpa [history] using hP
  | cons e es ih =>
    intro H r₀ h hP
    obtain ⟨r₁, he, h⟩ := Option.bind_eq_some_iff.mp h
    have hP₁ : P (H ++ r₀.acts e) r₁ := by
      cases ht : e.isTick with
      | true =>
        cases e <;> cases ht
        obtain ⟨rfl, hnow⟩ := eq_of_tick he
        simpa [acts] using htick hP hnow
      | false => exact hstep hP (step_of_step? he ht)
    simpa [history, he] using ih _ r₁ h hP₁

/-- What holds at first, and is kept by every step and by the clock, holds of every run, with its
history. -/
theorem steps_induction {P : History → Run → Prop} {r₀ : Run} {es : List Event}
    (h : r₀.steps? es = some r) (h₀ : P [] r₀)
    (htick : ∀ {H r now}, P H r → P H { r with now := now })
    (hstep : ∀ {H r A r'}, P H r → Step r A r' → P (H ++ A) r') : P (r₀.history es) r :=
  timed_steps_induction h h₀ (fun hP _ => htick hP) hstep

/-! ## The latch and the journal -/

theorem Step.latch (h : Step r H r') :
    Agrees r.shared.latch H.acts ∧ r'.shared.latch = (r.shared.latch || H.acts.any Act.isTrip) := by
  have quiet : Agrees r.shared.latch (History.acts ([] : History)) ∧
      r.shared.latch = (r.shared.latch || (History.acts ([] : History)).any Act.isTrip) := by
    simp [History.acts, Agrees]
  have strand {α : Type} {s s' : Strand α} {w : Who} {A : List Act} {sh : Shared}
      (hs : s.Step r.shared A s' sh) : Agrees r.shared.latch (History.acts (.solo w A)) ∧
        sh.latch = (r.shared.latch || (History.acts (.solo w A)).any Act.isTrip) := by
    rw [History.acts_solo]
    exact ⟨hs.agrees, hs.latch_eq⟩
  cases h with
  | start _ hs _ => exact strand hs
  | startCrash _ hs => exact strand hs
  | finish _ hs _ => exact strand hs
  | finishCrash _ hs => exact strand hs
  | row _ hs => exact strand hs
  | _ => exact quiet

/-- The acts of a run find the latch as the acts before them left it. -/
theorem latch_of_steps {r₀ : Run} {es : List Event} (hfresh : r₀.Fresh)
    (h : r₀.steps? es = some r) : Agrees false (r₀.history es).acts ∧
      r.shared.latch = (r₀.history es).acts.any Act.isTrip := by
  refine steps_induction (P := fun H r => Agrees false H.acts ∧
    r.shared.latch = H.acts.any Act.isTrip) h ⟨trivial, hfresh.latch_eq⟩ id ?_
  rintro H r X r' ⟨hagree, hlatch⟩ hs
  obtain ⟨hX, hlatch'⟩ := hs.latch
  rw [hlatch] at hX hlatch'
  rw [History.acts_append, List.any_append]
  exact ⟨agrees_append.mpr ⟨hagree, by simpa using hX⟩, hlatch'⟩

/-- The calls in the journal, the latest first, each with the strand that made it. -/
def told (r : Run) : List (Who × Call) := r.journal.map fun e => (e.who, e.call)

theorem Step.told (h : Step r H r') : r'.told = H.calls.reverse ++ r.told := by
  have noted (w : Who) (A : List Act) : (r.noted w A).map (fun e => (e.who, e.call)) =
      (History.calls (.solo w A)).reverse ++ r.told := by
    rw [History.calls_solo]
    simp [Run.noted, Run.told, Function.comp_def]
  have crash {α : Type} {s : Strand α} {A : List Act} {sh : Shared}
      (hs : s.Step sh A .crashed sh) : r.told = (History.calls (.solo .main A)).reverse ++ r.told := by
    cases hs
    rfl
  cases h with
  | start => exact noted .main _
  | startCrash _ hs => exact crash hs
  | finish => exact noted .main _
  | finishCrash _ hs => exact crash hs
  | row => exact noted (.row _) _
  | _ => rfl

/-- **The journal of a run lists the calls of its history.** -/
theorem told_of_steps {r₀ : Run} {es : List Event} (h : r₀.steps? es = some r) :
    r.told = (r₀.history es).calls.reverse ++ r₀.told := by
  refine steps_induction (P := fun H r => r.told = H.calls.reverse ++ r₀.told) h rfl id ?_
  intro H r X r' hr hs
  rw [hs.told, hr, History.calls_append, List.reverse_append, List.append_assoc]

end Run

end Vetting.Bulk
