import Vetting.Bulk.Dispatch
import Vetting.Proofs.RunProgress
import Vetting.Proofs.TaskCalls

/-! # What an upload has done at any time

An upload is prepared by one strand, and its run begins where the preparation has ended with a
plan. `Dispatch.Account` says so of every upload: what was done is a course of the preparation,
followed by the history of the run if there is one. -/

namespace Vetting.Bulk

namespace Dispatch

def acts (d : Dispatch) : Event → History
  | .leave => []
  | .run e =>
    match d, e with
    | .preparing p, .move .main clock => .solo .main (p.strand.moveActs clock p.shared)
    | .preparing p, .reply .main f => .solo .main (p.strand.replyActs f)
    | .running r _, e => r.acts e
    | _, _ => []

def history (d : Dispatch) : List Event → History
  | [] => []
  | e :: es =>
    match d.step? e with
    | some d' => d.acts e ++ d'.history es
    | none => []

theorem steps?_append (d : Dispatch) (es fs : List Event) :
    d.steps? (es ++ fs) = (d.steps? es).bind (·.steps? fs) := by
  induction es generalizing d with
  | nil => rfl
  | cons e es ih =>
    simp only [List.cons_append, steps?, Option.bind_assoc]
    exact congrArg _ (funext ih)

theorem fresh_launch (p : Preparation) (plan : Plan) : (launch p plan).Fresh := ⟨rfl, rfl, rfl, rfl⟩

/-- The history of an upload that is prepared by `t`. -/
inductive Account (t : Task (Except Refusal Plan)) : History → Dispatch → Prop where
  | preparing {p A} : p.strand ≠ .crashed → Course t A p.strand →
      Account t (.solo .main A) (.preparing p)
  | refused {p A r} : Course t A (.ended (.error r)) → Account t (.solo .main A) (.refused p r)
  | stopped {p A} : Course t A p.strand → Account t (.solo .main A) (.stopped p)
  | running {A es r gone} {r₀ : Run} : Course t A (.ended (.ok r₀.plan)) → r₀.Fresh →
      r₀.steps? es = some r → Account t (.solo .main A ++ r₀.history es) (.running r gone)

variable {t : Task (Except Refusal Plan)} {H : History} {d d' : Dispatch}

/-- All that may become of a preparation by one event, and what its strand does. -/
inductive Prepares (p : Preparation) : List Act → Dispatch → Prop where
  | went {A p'} : p.strand.Step p.shared A p'.strand p'.shared → p'.strand ≠ .crashed →
      Prepares p A (.preparing p')
  | waited (now : Nat) : Prepares p [] (.preparing { p with now := now })
  | planned {plan} : p.strand = .ended (.ok plan) → Prepares p [] (.running (launch p plan) false)
  | refused {r} : p.strand = .ended (.error r) → Prepares p [] (.refused p r)

theorem prepares_of_prepare? {p : Preparation} {e : Bulk.Event} (h : prepare? p e = some d') :
    ∃ A, (Dispatch.preparing p).acts (.run e) = .solo .main A ∧ Prepares p A d' := by
  unfold prepare? at h
  split at h
  · next clock =>
    refine ⟨p.strand.moveActs clock p.shared, rfl, ?_⟩
    split at h
    · next plan hs =>
      cases h
      rw [hs]
      exact .planned hs
    · next r hs =>
      cases h
      rw [hs]
      exact .refused hs
    · obtain ⟨⟨s', sh, c⟩, hs, rfl⟩ := Option.map_eq_some_iff.mp h
      exact .went (Strand.step_of_move? hs).1 (Strand.ne_crashed_of_move? hs)
  · next f =>
    obtain ⟨s', hs, rfl⟩ := Option.map_eq_some_iff.mp h
    have hstep : p.strand.Step p.shared (p.strand.replyActs f) s' p.shared :=
      Strand.step_of_reply? hs
    exact ⟨_, rfl, .went hstep (Strand.ne_crashed_of_reply? hs)⟩
  · next now =>
    split at h
    · cases h
      exact ⟨[], rfl, .waited now⟩
    · cases h
  · cases h

theorem account_of_prepares {p : Preparation} {A B : List Act} (hne : p.strand ≠ .crashed)
    (hc : Course t A p.strand) (h : Prepares p B d') :
    Account t (.solo .main (A ++ B)) d' := by
  cases h with
  | went hs hne => exact .preparing hne (hc.step hs)
  | waited now => simpa using Account.preparing (p := { p with now := now }) hne hc
  | @planned plan hp =>
    have hacc : Account t (.solo .main A ++ (launch p plan).history [])
        (.running (launch p plan) false) := .running (hp ▸ hc) (fresh_launch p plan) rfl
    simpa [Run.history] using hacc
  | refused hp => simpa using Account.refused (hp ▸ hc)

theorem Account.step {e : Event} (h : Account t H d) (hs : d.step? e = some d') :
    Account t (H ++ d.acts e) d' := by
  cases e with
  | leave =>
    cases h with
    | preparing hne hc =>
      cases hs
      simpa [acts] using Account.stopped hc
    | running hc hfresh hes =>
      cases hs
      simpa [acts] using Account.running hc hfresh hes
    | refused => cases hs
    | stopped => cases hs
  | run e =>
    cases h with
    | preparing hne hc =>
      obtain ⟨B, hB, hprep⟩ := prepares_of_prepare? hs
      rw [hB]
      simpa [History.solo] using account_of_prepares hne hc hprep
    | @running A es r gone r₀ hc hfresh hes =>
      obtain ⟨r', hr', rfl⟩ := Option.map_eq_some_iff.mp hs
      have hall : r₀.steps? (es ++ [e]) = some r' := by
        rw [Run.steps?_append, hes]
        simpa [Run.steps?] using hr'
      have hhist : r₀.history (es ++ [e]) = r₀.history es ++ r.acts e := by
        rw [Run.history_append hes]
        simp [Run.history, hr']
      have hacc : Account t (.solo .main A ++ r₀.history (es ++ [e])) (.running r' gone) :=
        .running hc hfresh hall
      simpa [acts, hhist] using hacc
    | refused => cases hs
    | stopped => cases hs

/-- **Every upload has an account.** -/
theorem account_of_steps {shared : Shared} {now : Nat} {journal : List (Entry Who)}
    {es : List Event} (h : (new t shared now journal).steps? es = some d) :
    Account t ((new t shared now journal).history es) d := by
  suffices hall : ∀ es H d₀, d₀.steps? es = some d → Account t H d₀ →
      Account t (H ++ d₀.history es) d by
    have hnew : Account t (.solo .main []) (new t shared now journal) := .preparing nofun (.rest t)
    exact hall es _ _ h hnew
  intro es
  induction es with
  | nil =>
    intro H d₀ h hacc
    cases h
    simpa [history] using hacc
  | cons e es ih =>
    intro H d₀ h hacc
    obtain ⟨d₁, he, h⟩ := Option.bind_eq_some_iff.mp h
    simpa [history, he] using ih _ d₁ h (hacc.step he)

theorem course_of_preparing {shared : Shared} {now : Nat} {journal : List (Entry Who)}
    {es : List Event} {p : Preparation}
    (h : (new t shared now journal).steps? es = some (.preparing p)) : ∃ A, Course t A p.strand := by
  have hacc := account_of_steps h
  generalize (new t shared now journal).history es = H at hacc
  cases hacc with | preparing _ hc => exact ⟨_, hc⟩

/-! ## Uploads come to their answer -/

/-- Events by which nothing crashes and the client does not go away. -/
def Event.Calm (clock : Instant) (f : (c : Call) → c.Outcome) : Event → Prop
  | .run e => e.Calm clock f
  | .leave => False

/-- Calm events can take `d` to `d'`. -/
def Leads (clock : Instant) (f : (c : Call) → c.Outcome) (d d' : Dispatch) : Prop :=
  ∃ es, d.steps? es = some d' ∧ ∀ e ∈ es, e.Calm clock f

variable {clock : Instant} {f : (c : Call) → c.Outcome}

theorem Leads.refl (d : Dispatch) : Leads clock f d d := ⟨[], rfl, by simp⟩

theorem Leads.head {d₁ : Dispatch} {e : Bulk.Event} (hs : d.step? (.run e) = some d₁)
    (he : e.Calm clock f) (h : Leads clock f d₁ d') : Leads clock f d d' := by
  obtain ⟨es, hes, hcalm⟩ := h
  refine ⟨.run e :: es, by simp [steps?, hs, hes], ?_⟩
  intro x hx
  rcases List.mem_cons.mp hx with rfl | hx
  · exact he
  · exact hcalm x hx

theorem Leads.trans {d₁ d₂ d₃ : Dispatch} (h : Leads clock f d₁ d₂) (h' : Leads clock f d₂ d₃) :
    Leads clock f d₁ d₃ := by
  obtain ⟨es, hes, hcalm⟩ := h
  obtain ⟨fs, hfs, hcalm'⟩ := h'
  refine ⟨es ++ fs, by rw [steps?_append, hes]; exact hfs, ?_⟩
  intro e he
  exact (List.mem_append.mp he).elim (hcalm e) (hcalm' e)

/-- What a run does by itself it does also as the run of an upload. -/
theorem Leads.of_run {r r' : Run} {es : List Bulk.Event} (gone : Bool) (h : r.steps? es = some r')
    (hcalm : ∀ e ∈ es, e.Calm clock f) :
    Leads clock f (.running r gone) (.running r' gone) := by
  induction es generalizing r with
  | nil =>
    cases h
    exact .refl _
  | cons e es ih =>
    obtain ⟨r₁, he, hes⟩ := Option.bind_eq_some_iff.mp h
    have hrest := ih hes fun x hx => hcalm x (List.mem_cons_of_mem e hx)
    exact .head (by simp [step?, he]) (hcalm e List.mem_cons_self) hrest

theorem step_of_ready (clock : Instant) {p : Preparation} {t : Task (Except Refusal Plan)}
    {s : Strand (Except Refusal Plan)} {x : Shared × Option Call} (hp : p.strand = .ready t)
    (hs : (Strand.ready t).move? clock p.shared = some (s, x)) :
    ∃ p₁ : Preparation, p₁.strand = s ∧
      step? (.preparing p) (.run (.move .main clock)) = some (.preparing p₁) := by
  have hstep : ∃ J, step? (.preparing p) (.run (.move .main clock)) =
      some (.preparing ⟨s, x.1, p.now, J⟩) := by
    simp only [step?, prepare?, hp]
    rw [hs]
    exact ⟨_, rfl⟩
  obtain ⟨J, hstep⟩ := hstep
  exact ⟨_, rfl, hstep⟩

theorem leads_of_ready (clock : Instant) (f : (c : Call) → c.Outcome)
    {t : Task (Except Refusal Plan)} {p : Preparation} (hp : p.strand = .ready t) :
    ∃ p' x, p'.strand = .ended x ∧ Leads clock f (.preparing p) (.preparing p') := by
  induction t generalizing p with
  | done a =>
    obtain ⟨p₁, hp₁, hs⟩ := step_of_ready clock hp rfl
    exact ⟨p₁, a, hp₁, .head hs rfl (.refl _)⟩
  | call c next ih =>
    obtain ⟨p₁, hp₁, hs⟩ := step_of_ready clock hp rfl
    have hr : step? (.preparing p₁) (.run (.reply .main f)) =
        some (.preparing { p₁ with strand := .ready (next (f c)) }) := by
      simp [step?, prepare?, hp₁, Strand.reply?]
    obtain ⟨p', x, hx, h⟩ := ih (f c) (p := { p₁ with strand := .ready (next (f c)) }) rfl
    exact ⟨p', x, hx, .head hs rfl (.head hr rfl h)⟩
  | fresh next ih =>
    obtain ⟨p₁, hp₁, hs⟩ := step_of_ready clock hp rfl
    obtain ⟨p', x, hx, h⟩ := ih _ hp₁
    exact ⟨p', x, hx, .head hs rfl h⟩
  | clock next ih =>
    obtain ⟨p₁, hp₁, hs⟩ := step_of_ready clock hp rfl
    obtain ⟨p', x, hx, h⟩ := ih _ hp₁
    exact ⟨p', x, hx, .head hs rfl h⟩
  | trip next ih =>
    obtain ⟨p₁, hp₁, hs⟩ := step_of_ready clock hp rfl
    obtain ⟨p', x, hx, h⟩ := ih _ hp₁
    exact ⟨p', x, hx, .head hs rfl h⟩
  | latched next ih =>
    obtain ⟨p₁, hp₁, hs⟩ := step_of_ready clock hp rfl
    obtain ⟨p', x, hx, h⟩ := ih _ hp₁
    exact ⟨p', x, hx, .head hs rfl h⟩
  | count m next ih =>
    obtain ⟨p₁, hp₁, hs⟩ := step_of_ready clock hp rfl
    obtain ⟨p', x, hx, h⟩ := ih hp₁
    exact ⟨p', x, hx, .head hs rfl h⟩

theorem leads_of_preparing (clock : Instant) (f : (c : Call) → c.Outcome) {p : Preparation}
    (hne : p.strand ≠ .crashed) :
    ∃ p' x, p'.strand = .ended x ∧ Leads clock f (.preparing p) (.preparing p') := by
  cases hp : p.strand with
  | ready t => exact leads_of_ready clock f hp
  | waiting c next =>
    have hr : step? (.preparing p) (.run (.reply .main f)) =
        some (.preparing { p with strand := .ready (next (f c)) }) := by
      simp [step?, prepare?, hp, Strand.reply?]
    obtain ⟨p', x, hx, h⟩ := leads_of_ready clock f
      (p := { p with strand := .ready (next (f c)) }) rfl
    exact ⟨p', x, hx, .head hr rfl h⟩
  | ended x => exact ⟨p, x, hp, .refl _⟩
  | crashed => exact absurd hp hne

theorem leads_of_ended (clock : Instant) (f : (c : Call) → c.Outcome) {p : Preparation}
    {x : Except Refusal Plan} (hp : p.strand = .ended x)
    (hx : ∀ plan, x = .ok plan → plan.pace.cap ≠ some 0) :
    ∃ d', Leads clock f (.preparing p) d' ∧ d'.answer?.isSome = true := by
  cases x with
  | error r =>
    have hs : step? (.preparing p) (.run (.move .main clock)) = some (.refused p r) := by
      simp [step?, prepare?, hp]
    exact ⟨_, .head hs rfl (.refl _), rfl⟩
  | ok plan =>
    have hs : step? (.preparing p) (.run (.move .main clock)) =
        some (.running (launch p plan) false) := by
      simp [step?, prepare?, hp]
    have hnil : (launch p plan).steps? [] = some (launch p plan) := rfl
    obtain ⟨fs, r', hfs, hcalm, hans⟩ :=
      Run.ends_of_steps (fresh_launch p plan) hnil (hx plan rfl) clock f
    exact ⟨_, .head hs rfl (.of_run false hfs hcalm), hans⟩

/-- The client of the upload is still there. -/
def Present : Dispatch → Prop
  | .stopped _ => False
  | .running _ true => False
  | _ => True

/-- **An upload can be brought to its answer** from wherever it stands, whatever the services
reply, unless its client has gone or there are no permits. -/
theorem answers_of_steps {shared : Shared} {now : Nat} {journal : List (Entry Who)}
    {es : List Event} (h : (new t shared now journal).steps? es = some d)
    (hpresent : d.Present)
    (hcap : ∀ A plan, Course t A (.ended (.ok plan)) → plan.pace.cap ≠ some 0)
    (clock : Instant) (f : (c : Call) → c.Outcome) :
    ∃ d', Leads clock f d d' ∧ d'.answer?.isSome = true := by
  have hacc := account_of_steps h
  generalize (new t shared now journal).history es = H at hacc
  cases hacc with
  | preparing hne _ =>
    obtain ⟨p', x, hx, fs, hfs, hcalm⟩ := leads_of_preparing clock f hne
    have hall : (new t shared now journal).steps? (es ++ fs) = some (.preparing p') := by
      rw [steps?_append, h]
      exact hfs
    obtain ⟨A, hA⟩ := course_of_preparing hall
    obtain ⟨d', hd', hans⟩ := leads_of_ended clock f hx fun plan hplan =>
      hcap A plan (by rw [← hplan, ← hx]; exact hA)
    exact ⟨d', .trans ⟨fs, hfs, hcalm⟩ hd', hans⟩
  | refused => exact ⟨_, .refl _, rfl⟩
  | stopped => exact hpresent.elim
  | @running A es r gone r₀ hc hfresh hes =>
    cases gone with
    | true => exact hpresent.elim
    | false =>
      obtain ⟨fs, r', hfs, hcalm, hans⟩ := Run.ends_of_steps hfresh hes (hcap _ _ hc) clock f
      exact ⟨_, .of_run false hfs hcalm, hans⟩

end Dispatch

end Vetting.Bulk
