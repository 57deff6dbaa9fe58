import Vetting.Desk.Strand

/-! # Courses of a task

What a strand does and meets is a list of acts: the calls it makes, the replies and crashes it
gets, and what it takes from or does to what the strands of a job share. `Course t A s` says that a
task `t` can do the acts `A` and stand at `s` afterwards, whatever the services reply. Every step
of a strand prolongs its course, and a course of a task put together from two is put together from
courses of the two. -/

namespace Vetting

inductive Act where
  | called (c : Call)
  | answered (c : Call) (o : c.Outcome)
  | crashed (c : Call)
  /-- A sequence number was taken. -/
  | drew (n : UInt64)
  /-- The clock was read. -/
  | read (i : Instant)
  /-- The failure latch was set; `before` tells whether it had been set already. -/
  | tripped (before : Bool)
  /-- The failure latch was looked at. -/
  | looked (latch : Bool)
  | counted (m : Metric)

namespace Act

def call? : Act → Option Call
  | .called c => some c
  | _ => none

def isTrip : Act → Bool
  | .tripped _ => true
  | _ => false

/-- The first setting of the latch. -/
def isFirstTrip : Act → Bool
  | .tripped before => !before
  | _ => false

def isCrash : Act → Bool
  | .crashed _ => true
  | _ => false

/-- Acts that neither the services nor the other strands see. -/
def isSilent : Act → Bool
  | .drew _ => true
  | .read _ => true
  | _ => false

end Act

def callsOf (A : List Act) : List Call := A.filterMap Act.call?

@[simp] theorem callsOf_nil : callsOf [] = [] := rfl

@[simp] theorem callsOf_cons (a : Act) (A : List Act) :
    callsOf (a :: A) = a.call?.toList ++ callsOf A := by
  cases h : a.call? <;> simp [callsOf, h]

@[simp] theorem callsOf_append (A B : List Act) : callsOf (A ++ B) = callsOf A ++ callsOf B :=
  List.filterMap_append

theorem countP_callsOf (q : Call → Bool) (A : List Act) :
    (callsOf A).countP q = A.countP fun a => a.call?.any q := by
  induction A with
  | nil => rfl
  | cons a A ih => cases a <;> simp [List.countP_cons, Act.call?, ih]

/-- A list that holds `x` behind a part without `x`. -/
theorem exists_of_append_eq {β : Type} {L M H₁ H₂ : List β} {x : β} (h : L ++ M = H₁ ++ x :: H₂)
    (hx : x ∉ L) : ∃ M₁, H₁ = L ++ M₁ ∧ M = M₁ ++ x :: H₂ := by
  rcases List.append_eq_append_iff.mp h with ⟨M₁, rfl, hM⟩ | ⟨L₂, rfl, hL⟩
  · exact ⟨M₁, rfl, hM⟩
  · cases L₂ with
    | nil => exact ⟨[], by simp, by simpa using hL.symm⟩
    | cons y L₂ =>
      cases hL
      simp at hx

/-- A list that holds `x` before a part without `x`. -/
theorem exists_of_append_eq_left {β : Type} {L M H₁ H₂ : List β} {x : β}
    (h : L ++ M = H₁ ++ x :: H₂) (hx : x ∉ M) : ∃ L₂, L = H₁ ++ x :: L₂ := by
  rcases List.append_eq_append_iff.mp h with ⟨M₁, rfl, hM⟩ | ⟨L₂, rfl, hL⟩
  · simp [hM] at hx
  · cases L₂ with
    | nil =>
      rw [List.nil_append] at hL
      simp [← hL] at hx
    | cons y L₂ =>
      cases hL
      exact ⟨L₂, rfl⟩

/-- The acts that the services or the other strands see. -/
def visible (A : List Act) : List Act := A.filter fun a => !a.isSilent

@[simp] theorem visible_cons (a : Act) (A : List Act) :
    visible (a :: A) = if a.isSilent then visible A else a :: visible A := by
  cases h : a.isSilent <;> simp [visible, h]

theorem mem_visible {a : Act} {A : List Act} (ha : a.isSilent = false) :
    a ∈ visible A ↔ a ∈ A := by simp [visible, ha]

/-- Counting a kind of acts that others see may leave the silent acts out. -/
theorem countP_visible {p : Act → Bool} (hdrew : ∀ n, p (.drew n) = false)
    (hread : ∀ i, p (.read i) = false) (A : List Act) : (visible A).countP p = A.countP p := by
  rw [visible, List.countP_filter]
  apply List.countP_congr
  intro a _
  cases a <;> simp [Act.isSilent, hdrew, hread]

theorem any_visible {p : Act → Bool} (hdrew : ∀ n, p (.drew n) = false)
    (hread : ∀ i, p (.read i) = false) (A : List Act) : (visible A).any p = A.any p := by
  rw [Bool.eq_iff_iff, List.any_eq_true, List.any_eq_true, ← List.countP_pos_iff,
    ← List.countP_pos_iff, countP_visible hdrew hread]

theorem callsOf_visible (A : List Act) : callsOf (visible A) = callsOf A := by
  induction A with
  | nil => rfl
  | cons a A ih => cases a <;> simp [Act.isSilent, Act.call?, ih]

variable {α β : Type}

namespace Strand

/-- What a strand can do next, with the acts by which it does so. -/
inductive Step : Shared → Strand α → List Act → Strand α → Shared → Prop where
  | done {sh a} : Step sh (.ready (.done a)) [] (.ended a) sh
  | call {sh c next} : Step sh (.ready (.call c next)) [.called c] (.waiting c next) sh
  | fresh {sh next} : Step sh (.ready (.fresh next)) [.drew (sh.issued + 1)]
      (.ready (next (sh.issued + 1))) { sh with issued := sh.issued + 1 }
  | clock {sh next} (i : Instant) : Step sh (.ready (.clock next)) [.read i] (.ready (next i)) sh
  | trip {sh next} : Step sh (.ready (.trip next)) [.tripped sh.latch] (.ready (next sh.latch))
      { sh with latch := true }
  | latched {sh next} : Step sh (.ready (.latched next)) [.looked sh.latch]
      (.ready (next sh.latch)) sh
  | count {sh m next} : Step sh (.ready (.count m next)) [.counted m] (.ready next)
      { sh with counted := m :: sh.counted }
  | reply {sh c next} (o : c.Outcome) : Step sh (.waiting c next) [.answered c o] (.ready (next o)) sh
  | crash {sh c next} : Step sh (.waiting c next) [.crashed c] .crashed sh

/-- The acts of a move. -/
def moveActs (clock : Instant) (sh : Shared) : Strand α → List Act
  | .ready (.call c _) => [.called c]
  | .ready (.fresh _) => [.drew (sh.issued + 1)]
  | .ready (.clock _) => [.read clock]
  | .ready (.trip _) => [.tripped sh.latch]
  | .ready (.latched _) => [.looked sh.latch]
  | .ready (.count m _) => [.counted m]
  | _ => []

def replyActs (r : (c : Call) → c.Outcome) : Strand α → List Act
  | .waiting c _ => [.answered c (r c)]
  | _ => []

def crashActs : Strand α → List Act
  | .waiting c _ => [.crashed c]
  | _ => []

theorem step_of_move? {clock : Instant} {sh sh' : Shared} {s s' : Strand α} {c : Option Call}
    (h : s.move? clock sh = some (s', sh', c)) :
    Step sh s (s.moveActs clock sh) s' sh' ∧ callsOf (s.moveActs clock sh) = c.toList := by
  cases s with
  | ready t =>
    cases t with
    | done => cases h; exact ⟨.done, rfl⟩
    | call => cases h; exact ⟨.call, rfl⟩
    | fresh => cases h; exact ⟨.fresh, rfl⟩
    | clock => cases h; exact ⟨.clock clock, rfl⟩
    | trip => cases h; exact ⟨.trip, rfl⟩
    | latched => cases h; exact ⟨.latched, rfl⟩
    | count => cases h; exact ⟨.count, rfl⟩
  | waiting => cases h
  | ended => cases h
  | crashed => cases h

theorem ne_crashed_of_move? {clock : Instant} {sh : Shared} {s s' : Strand α}
    {x : Shared × Option Call} (h : s.move? clock sh = some (s', x)) : s' ≠ .crashed := by
  rintro rfl
  cases s with
  | ready t => cases t <;> cases h
  | waiting | ended | crashed => cases h

theorem ne_crashed_of_reply? {r : (c : Call) → c.Outcome} {s s' : Strand α}
    (h : s.reply? r = some s') : s' ≠ .crashed := by
  rintro rfl
  cases s <;> cases h

theorem step_of_reply? {r : (c : Call) → c.Outcome} {sh : Shared} {s s' : Strand α}
    (h : s.reply? r = some s') : Step sh s (s.replyActs r) s' sh := by
  cases s <;> cases h
  exact .reply _

theorem step_of_crash? {sh : Shared} {s s' : Strand α} (h : s.crash? = some s') :
    Step sh s s.crashActs s' sh ∧ s' = .crashed := by
  cases s <;> cases h
  exact ⟨.crash, rfl⟩

namespace Step

variable {sh sh' : Shared} {s s' : Strand α} {A : List Act}

theorem not_over (h : Step sh s A s' sh') : s.isOver = false := by cases h <;> rfl

theorem latch_eq (h : Step sh s A s' sh') : sh'.latch = (sh.latch || A.any Act.isTrip) := by
  cases h <;> simp [Act.isTrip]

end Step

end Strand

/-- Where a strand stands if its task goes on with another one. -/
def Strand.bind (s : Strand α) (f : α → Task β) : Strand β :=
  match s with
  | .ready t => .ready (t.bind f)
  | .waiting c next => .waiting c fun o => (next o).bind f
  | .ended a => .ready (f a)
  | .crashed => .crashed

/-- The acts `A` of a task that has come to `s`. -/
inductive Course : Task α → List Act → Strand α → Prop where
  | rest (t : Task α) : Course t [] (.ready t)
  | ended (a : α) : Course (.done a) [] (.ended a)
  | waiting (c : Call) (next : c.Outcome → Task α) :
      Course (.call c next) [.called c] (.waiting c next)
  | crashed (c : Call) (next : c.Outcome → Task α) :
      Course (.call c next) [.called c, .crashed c] .crashed
  | call {c : Call} {next : c.Outcome → Task α} {A : List Act} {s : Strand α} (o : c.Outcome) :
      Course (next o) A s → Course (.call c next) (.called c :: .answered c o :: A) s
  | fresh {next : UInt64 → Task α} {A : List Act} {s : Strand α} (n : UInt64) :
      Course (next n) A s → Course (.fresh next) (.drew n :: A) s
  | clock {next : Instant → Task α} {A : List Act} {s : Strand α} (i : Instant) :
      Course (next i) A s → Course (.clock next) (.read i :: A) s
  | trip {next : Bool → Task α} {A : List Act} {s : Strand α} (b : Bool) :
      Course (next b) A s → Course (.trip next) (.tripped b :: A) s
  | latched {next : Bool → Task α} {A : List Act} {s : Strand α} (b : Bool) :
      Course (next b) A s → Course (.latched next) (.looked b :: A) s
  | count {m : Metric} {next : Task α} {A : List Act} {s : Strand α} :
      Course next A s → Course (.count m next) (.counted m :: A) s

namespace Course

variable {t : Task α} {s s' : Strand α} {A B : List Act} {sh sh' : Shared}

/-- **A step prolongs the course of its strand** by the acts of the step. -/
theorem step (h : Course t A s) (hs : s.Step sh B s' sh') : Course t (A ++ B) s' := by
  induction h with
  | rest t =>
    cases hs with
    | done => exact .ended _
    | call => exact .waiting _ _
    | fresh => exact .fresh _ (.rest _)
    | clock i => exact .clock i (.rest _)
    | trip => exact .trip _ (.rest _)
    | latched => exact .latched _ (.rest _)
    | count => exact .count (.rest _)
  | ended => cases hs
  | waiting c next =>
    cases hs with
    | reply o => exact .call o (.rest _)
    | crash => exact .crashed _ _
  | crashed => cases hs
  | call o _ ih => exact .call o (ih hs)
  | fresh n _ ih => exact .fresh n (ih hs)
  | clock i _ ih => exact .clock i (ih hs)
  | trip b _ ih => exact .trip b (ih hs)
  | latched b _ ih => exact .latched b (ih hs)
  | count _ ih => exact .count (ih hs)

/-- A course of a task that goes on with another one is a course of the first and one of the
second. -/
theorem bind_ended {f : α → Task β} {b : β} (h : Course (t.bind f) A (.ended b)) :
    ∃ a A₁ A₂, A = A₁ ++ A₂ ∧ Course t A₁ (.ended a) ∧ Course (f a) A₂ (.ended b) := by
  induction t generalizing A with
  | done a => exact ⟨a, [], A, rfl, .ended a, h⟩
  | call c next ih =>
    cases h with
    | call o h =>
      obtain ⟨a, A₁, A₂, rfl, h₁, h₂⟩ := ih o h
      exact ⟨a, _, A₂, rfl, .call o h₁, h₂⟩
  | fresh next ih =>
    cases h with
    | fresh n h =>
      obtain ⟨a, A₁, A₂, rfl, h₁, h₂⟩ := ih n h
      exact ⟨a, _, A₂, rfl, .fresh n h₁, h₂⟩
  | clock next ih =>
    cases h with
    | clock i h =>
      obtain ⟨a, A₁, A₂, rfl, h₁, h₂⟩ := ih i h
      exact ⟨a, _, A₂, rfl, .clock i h₁, h₂⟩
  | trip next ih =>
    cases h with
    | trip b h =>
      obtain ⟨a, A₁, A₂, rfl, h₁, h₂⟩ := ih b h
      exact ⟨a, _, A₂, rfl, .trip b h₁, h₂⟩
  | latched next ih =>
    cases h with
    | latched b h =>
      obtain ⟨a, A₁, A₂, rfl, h₁, h₂⟩ := ih b h
      exact ⟨a, _, A₂, rfl, .latched b h₁, h₂⟩
  | count m next ih =>
    cases h with
    | count h =>
      obtain ⟨a, A₁, A₂, rfl, h₁, h₂⟩ := ih h
      exact ⟨a, _, A₂, rfl, .count h₁, h₂⟩

/-- A course of a task that goes on with another one has not left the first, or is a course of
both. -/
theorem of_bind {f : α → Task β} {s : Strand β} (h : Course (t.bind f) A s) :
    (∃ s', Course t A s') ∨
      ∃ a A₁ A₂, A = A₁ ++ A₂ ∧ Course t A₁ (.ended a) ∧ Course (f a) A₂ s := by
  induction t generalizing A with
  | done a => exact .inr ⟨a, [], A, rfl, .ended a, h⟩
  | call c next ih =>
    cases h with
    | rest => exact .inl ⟨_, .rest _⟩
    | waiting => exact .inl ⟨_, .waiting c next⟩
    | crashed => exact .inl ⟨_, .crashed c next⟩
    | call o h =>
      rcases ih o h with ⟨s', h⟩ | ⟨a, A₁, A₂, rfl, h₁, h₂⟩
      · exact .inl ⟨s', .call o h⟩
      · exact .inr ⟨a, _, A₂, rfl, .call o h₁, h₂⟩
  | fresh next ih =>
    cases h with
    | rest => exact .inl ⟨_, .rest _⟩
    | fresh n h =>
      rcases ih n h with ⟨s', h⟩ | ⟨a, A₁, A₂, rfl, h₁, h₂⟩
      · exact .inl ⟨s', .fresh n h⟩
      · exact .inr ⟨a, _, A₂, rfl, .fresh n h₁, h₂⟩
  | clock next ih =>
    cases h with
    | rest => exact .inl ⟨_, .rest _⟩
    | clock i h =>
      rcases ih i h with ⟨s', h⟩ | ⟨a, A₁, A₂, rfl, h₁, h₂⟩
      · exact .inl ⟨s', .clock i h⟩
      · exact .inr ⟨a, _, A₂, rfl, .clock i h₁, h₂⟩
  | trip next ih =>
    cases h with
    | rest => exact .inl ⟨_, .rest _⟩
    | trip b h =>
      rcases ih b h with ⟨s', h⟩ | ⟨a, A₁, A₂, rfl, h₁, h₂⟩
      · exact .inl ⟨s', .trip b h⟩
      · exact .inr ⟨a, _, A₂, rfl, .trip b h₁, h₂⟩
  | latched next ih =>
    cases h with
    | rest => exact .inl ⟨_, .rest _⟩
    | latched b h =>
      rcases ih b h with ⟨s', h⟩ | ⟨a, A₁, A₂, rfl, h₁, h₂⟩
      · exact .inl ⟨s', .latched b h⟩
      · exact .inr ⟨a, _, A₂, rfl, .latched b h₁, h₂⟩
  | count m next ih =>
    cases h with
    | rest => exact .inl ⟨_, .rest _⟩
    | count h =>
      rcases ih h with ⟨s', h⟩ | ⟨a, A₁, A₂, rfl, h₁, h₂⟩
      · exact .inl ⟨s', .count h⟩
      · exact .inr ⟨a, _, A₂, rfl, .count h₁, h₂⟩

theorem bind (h : Course t A s) (f : α → Task β) : Course (t.bind f) A (s.bind f) := by
  induction h with
  | rest => exact .rest _
  | ended a => exact .rest _
  | waiting c next => exact .waiting c _
  | crashed c next => exact .crashed c _
  | call o _ ih => exact .call o ih
  | fresh n _ ih => exact .fresh n ih
  | clock i _ ih => exact .clock i ih
  | trip b _ ih => exact .trip b ih
  | latched b _ ih => exact .latched b ih
  | count _ ih => exact .count ih

theorem followed {f : α → Task β} {a : α} {st : Strand β} (h : Course t A (.ended a))
    (h' : Course (f a) B st) : Course (t.bind f) (A ++ B) st := by
  generalize hs : Strand.ended a = s at h
  induction h with
  | ended b =>
    cases hs
    exact h'
  | call o _ ih => exact .call o (ih hs)
  | fresh n _ ih => exact .fresh n (ih hs)
  | clock i _ ih => exact .clock i (ih hs)
  | trip b _ ih => exact .trip b (ih hs)
  | latched b _ ih => exact .latched b (ih hs)
  | count _ ih => exact .count (ih hs)
  | rest | waiting | crashed => cases hs

/-- A strand has crashed just if its last act was a crash. -/
theorem isCrash_mem (h : Course t A s) : (∃ a ∈ A, a.isCrash = true) ↔ s = .crashed := by
  induction h <;> simp_all [Act.isCrash]

/-- A strand that is over and did not crash has ended. -/
theorem ended_of_calm (h : Course t A s) (hover : s.isOver = true)
    (hcalm : ∀ a ∈ A, a.isCrash = false) : ∃ a, s = .ended a := by
  cases s with
  | ended a => exact ⟨a, rfl⟩
  | crashed =>
    obtain ⟨a, ha, hcrash⟩ := h.isCrash_mem.mpr rfl
    rw [hcalm a ha] at hcrash
    cases hcrash
  | ready | waiting => cases hover

end Course

/-! ## The failure latch -/

/-- Acts that find the latch as `b` and the acts before them left it. -/
def Agrees : Bool → List Act → Prop
  | _, [] => True
  | b, .tripped before :: A => before = b ∧ Agrees true A
  | b, .looked latch :: A => latch = b ∧ Agrees b A
  | b, _ :: A => Agrees b A

theorem agrees_append {b : Bool} {A B : List Act} :
    Agrees b (A ++ B) ↔ Agrees b A ∧ Agrees (b || A.any Act.isTrip) B := by
  induction A generalizing b with
  | nil => simp [Agrees]
  | cons a A ih => cases a <;> simp [Agrees, Act.isTrip, ih, and_assoc]

theorem agrees_visible {b : Bool} {A : List Act} : Agrees b (visible A) ↔ Agrees b A := by
  induction A generalizing b with
  | nil => rfl
  | cons a A ih => cases a <;> simp [Agrees, Act.isSilent, ih]

theorem Strand.Step.agrees {sh sh' : Shared} {s s' : Strand α} {A : List Act}
    (h : Step sh s A s' sh') : Agrees sh.latch A := by
  cases h <;> simp [Agrees]

/-- However often the latch is set, it is set for the first time once. -/
theorem countP_isFirstTrip {b : Bool} {A : List Act} (h : Agrees b A) :
    A.countP Act.isFirstTrip = if A.any Act.isTrip && !b then 1 else 0 := by
  induction A generalizing b with
  | nil => simp
  | cons a A ih =>
    cases a with
    | tripped before =>
      obtain ⟨rfl, h⟩ := h
      rw [List.countP_cons, ih h]
      simp [Act.isFirstTrip, Act.isTrip]
    | looked latch =>
      rw [List.countP_cons, ih h.2]
      simp [Act.isFirstTrip, Act.isTrip]
    | called | answered | crashed | drew | read | counted =>
      rw [List.countP_cons, ih h]
      simp [Act.isFirstTrip, Act.isTrip]

end Vetting
