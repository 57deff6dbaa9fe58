import Vetting.Proofs.ErrandCourse
import Vetting.Proofs.OutlivesClient
import Vetting.Proofs.SteadyServices

/-! # Coming to an end under given services

Services whose replies hang on what was asked before still reply to every call. So an errand and an
upload can be brought to their end by them from wherever they stand, all that is done on the way
being served. The preparation of an upload is led there as an errand would be. -/

namespace Vetting

variable {S : Services} {past : List Call}

namespace Errand

variable {α : Type} {e e' : Errand α}

/-- From here the errand can be brought to its end, all that it does being served. -/
def EndsServed (S : Services) (past : List Call) (e : Errand α) : Prop :=
  ∃ evs e' a, e.steps? evs = some e' ∧ e'.strand = .ended a ∧ S.Serve past (e.history evs)

theorem EndsServed.head (ev : Event) (hs : e.step? ev = some e') (hS : S.Serve past (e.acts ev))
    (h : EndsServed S (past ++ callsOf (e.acts ev)) e') : EndsServed S past e := by
  obtain ⟨evs, e₁, a, hevs, ha, hserve⟩ := h
  refine ⟨ev :: evs, e₁, a, by simp [steps?, hs, hevs], ha, ?_⟩
  simp only [history, hs]
  exact Services.serve_append.mpr ⟨hS, hserve⟩

theorem endsServed_of_ready (S : Services) {t : Task α} (ht : e.strand = .ready t)
    (past : List Call) : EndsServed S past e := by
  obtain ⟨s, sh⟩ := e
  dsimp only at ht
  subst ht
  induction t generalizing sh past with
  | done a => exact ⟨[.move default], ⟨.ended a, sh⟩, a, rfl, rfl, trivial⟩
  | call c next ih =>
    refine .head (.move default) rfl trivial ?_
    exact .head (.reply (S.reply (past ++ [c]))) rfl ⟨rfl, trivial⟩ (ih _ _ sh)
  | fresh next ih => exact .head (.move default) rfl trivial (ih _ _ _)
  | clock next ih => exact .head (.move default) rfl trivial (ih _ _ _)
  | trip next ih => exact .head (.move default) rfl trivial (ih _ _ _)
  | latched next ih => exact .head (.move default) rfl trivial (ih _ _ _)
  | count m next ih => exact .head (.move default) rfl trivial (ih _ _)

/-- **An errand that has not crashed can be brought to its end** by the services. -/
theorem endsServed (S : Services) (hne : e.strand ≠ .crashed) (past : List Call) :
    EndsServed S past e := by
  obtain ⟨s, sh⟩ := e
  cases s with
  | ready t => exact endsServed_of_ready S rfl past
  | waiting c next =>
    exact .head (.reply (S.reply past)) rfl ⟨rfl, trivial⟩ (endsServed_of_ready S rfl _)
  | ended a => exact ⟨[], _, a, rfl, rfl, trivial⟩
  | crashed => exact absurd rfl hne

end Errand

namespace Bulk

/-! ## Runs -/

namespace Run

variable {r₀ r : Run} {es : List Event}

theorem serve_acts {clock : Instant} {e : Event} (he : e.Calm clock (S.reply past)) :
    S.Serve past (r.acts e).acts := by
  have move {α : Type} (s : Strand α) (w : Who) (i : Instant) :
      S.Serve past (History.acts (.solo w (s.moveActs i r.shared))) := by
    rw [History.acts_solo]
    cases s with
    | ready t => cases t <;> trivial
    | waiting | ended | crashed => trivial
  have reply {α : Type} (s : Strand α) (w : Who) :
      S.Serve past (History.acts (.solo w (s.replyActs (S.reply past)))) := by
    rw [History.acts_solo]
    cases s with
    | waiting c next => exact ⟨rfl, trivial⟩
    | ready | ended | crashed => trivial
  cases e with
  | move w i => cases w <;> simp only [acts] <;> split <;> first | exact move _ _ _ | trivial
  | reply w g =>
    cases he
    cases w <;> simp only [acts] <;> split <;> first | exact reply _ _ | trivial
  | crash w => exact he.elim
  | join i => trivial
  | tick now => trivial

/-- **A run can be brought to its end by the services** from wherever it stands. -/
theorem ends_served (S : Services) (hfresh : r₀.Fresh) (h : r₀.steps? es = some r)
    (hcap : r₀.plan.pace.cap ≠ some 0) (past : List Call) :
    ∃ fs r', r.steps? fs = some r' ∧ S.Serve past (r.history fs).acts ∧
      r'.answer?.isSome = true := by
  obtain ⟨n, hn⟩ := within_of_steps hfresh h
  induction n using Nat.strongRecOn generalizing r es past with
  | ind n ih =>
    cases hans : r.answer? with
    | some a => exact ⟨[], r, rfl, trivial, by rw [hans]; rfl⟩
    | none =>
      obtain ⟨now, e, r₁, r₂, m, hlt, hr₁, hr₂, hcalm, hm⟩ :=
        nearer_of_steps hfresh h hcap hans hn default (S.reply past)
      have htwo : r.steps? [.tick now, e] = some r₂ := by simp [steps?, hr₁, hr₂]
      have hall : r₀.steps? (es ++ [.tick now, e]) = some r₂ := by
        rw [steps?_append, h]
        exact htwo
      obtain ⟨fs, r', hfs, hserve, hend⟩ := ih m hlt hall (past ++ callsOf (r₁.acts e).acts) hm
      refine ⟨[.tick now, e] ++ fs, r', by rw [steps?_append, htwo]; exact hfs, ?_, hend⟩
      have hhist : (r.history ([.tick now, e] ++ fs)).acts =
          (r₁.acts e).acts ++ (r₂.history fs).acts := by
        rw [history_append htwo]
        simp [history, hr₁, hr₂, show r.acts (.tick now) = [] from rfl]
      rw [hhist]
      exact Services.serve_append.mpr ⟨serve_acts hcalm, hserve⟩

end Run

/-! ## Uploads -/

namespace Dispatch

variable {d d' : Dispatch} {es : List Bulk.Event}

theorem history_append {es : List Event} (h : d.steps? es = some d') (fs : List Event) :
    d.history (es ++ fs) = d.history es ++ d'.history fs := by
  induction es generalizing d with
  | nil =>
    cases h
    rfl
  | cons e es ih =>
    obtain ⟨d₁, he, h⟩ := Option.bind_eq_some_iff.mp h
    simp [history, he, ih h]

theorem present_of_steps (h : d.steps? (es.map .run) = some d') (hd : d.Present) : d'.Present := by
  induction es generalizing d with
  | nil =>
    cases h
    exact hd
  | cons e es ih =>
    obtain ⟨d₁, he, h⟩ := Option.bind_eq_some_iff.mp h
    refine ih h ?_
    cases d with
    | preparing p =>
      obtain ⟨A, _, hprep⟩ := prepares_of_prepare? he
      cases hprep <;> trivial
    | running r gone =>
      obtain ⟨r', _, rfl⟩ := Option.map_eq_some_iff.mp he
      cases gone with
      | true => exact hd.elim
      | false => trivial
    | refused | stopped => cases he

/-- From here the upload can be brought to its answer, all that it does being served. -/
def AnswersServed (S : Services) (past : List Call) (d : Dispatch) : Prop :=
  ∃ (es : List Bulk.Event) (d' : Dispatch), d.steps? (es.map .run) = some d' ∧
    d'.answer?.isSome = true ∧ S.Serve past (d.history (es.map .run)).acts

theorem AnswersServed.after (es : List Bulk.Event) (h : d.steps? (es.map .run) = some d')
    (hS : S.Serve past (d.history (es.map .run)).acts)
    (hd' : AnswersServed S (past ++ callsOf (d.history (es.map .run)).acts) d') :
    AnswersServed S past d := by
  obtain ⟨fs, d'', hfs, hans, hserve⟩ := hd'
  refine ⟨es ++ fs, d'', ?_, hans, ?_⟩
  · rw [List.map_append, steps?_append, h]
    exact hfs
  · rw [List.map_append, history_append h, History.acts_append]
    exact Services.serve_append.mpr ⟨hS, hserve⟩

/-- **A preparation can go as an errand of its strand goes.** -/
theorem follows_errand {p : Preparation} {evs : List Errand.Event}
    {e : Errand (Except Refusal Plan)} (h : (Errand.mk p.strand p.shared).steps? evs = some e)
    (hS : S.Serve past ((Errand.mk p.strand p.shared).history evs)) :
    ∃ (es : List Bulk.Event) (p' : Preparation), (preparing p).steps? (es.map .run) =
        some (preparing p') ∧ p'.strand = e.strand ∧
      (preparing p).history (es.map .run) =
        .solo .main ((Errand.mk p.strand p.shared).history evs) := by
  induction evs generalizing p past with
  | nil =>
    cases h
    exact ⟨[], p, rfl, rfl, rfl⟩
  | cons ev evs ih =>
    obtain ⟨e₁, hev, h⟩ := Option.bind_eq_some_iff.mp h
    simp only [Errand.history, hev] at hS ⊢
    obtain ⟨hhead, hrest⟩ := Services.serve_append.mp hS
    -- one event of the preparation with the acts of `ev`
    suffices hone : ∃ (x : Bulk.Event) (p₁ : Preparation), prepare? p x = some (.preparing p₁) ∧
        Errand.mk p₁.strand p₁.shared = e₁ ∧ (preparing p).acts (.run x) =
          .solo .main ((Errand.mk p.strand p.shared).acts ev) by
      obtain ⟨x, p₁, hx, rfl, hacts⟩ := hone
      obtain ⟨es, p', hes, hp', hhist⟩ := ih h hrest
      refine ⟨x :: es, p', by simp [steps?, step?, hx, hes], hp', ?_⟩
      simp [history, step?, hx, hacts, hhist, History.solo]
    cases ev with
    | move clock =>
      obtain ⟨⟨s, sh, c⟩, hs, rfl⟩ := Option.map_eq_some_iff.mp hev
      have hstep : ∃ J, prepare? p (.move .main clock) = some (.preparing ⟨s, sh, p.now, J⟩) := by
        dsimp only at hs
        cases hp : p.strand with
        | ready t =>
          rw [hp] at hs
          simp only [prepare?, hp, hs]
          exact ⟨_, rfl⟩
        | waiting | ended | crashed => simp [hp, Strand.move?] at hs
      obtain ⟨J, hstep⟩ := hstep
      exact ⟨.move .main clock, _, hstep, rfl, rfl⟩
    | reply f =>
      obtain ⟨s, hs, rfl⟩ := Option.map_eq_some_iff.mp hev
      refine ⟨.reply .main f, { p with strand := s }, ?_, rfl, rfl⟩
      simp [prepare?, hs]
    | crash =>
      obtain ⟨s, hs, rfl⟩ := Option.map_eq_some_iff.mp hev
      cases hp : p.strand with
      | waiting c next => simp [Errand.acts, hp, Strand.crashActs, Services.Serve] at hhead
      | ready | ended | crashed => simp [hp, Strand.crash?] at hs

/-- **An upload whose client stays can be brought to its answer** by the services, from wherever it
stands, if there are permits. -/
theorem answersServed {i : Identity} {p : Product} {pace : Pace} {csv : Text.Bytes}
    {shared : Shared} {now : Nat} {journal : List (Entry Who)} (S : Services)
    (h : (new (Plan.prepare i p pace csv) shared now journal).steps? (es.map .run) = some d)
    (hcap : pace.cap ≠ some 0) (past : List Call) : AnswersServed S past d := by
  have hrun {r₀ r : Run} {fs : List Bulk.Event} (hfresh : r₀.Fresh) (hfs : r₀.steps? fs = some r)
      {A : List Act} (hc : Course (Plan.prepare i p pace csv) A (.ended (.ok r₀.plan)))
      (past : List Call) : AnswersServed S past (.running r false) := by
    obtain ⟨job, plan, heq, hprep⟩ := (Plan.prepare_ended hc).resolve_left nofun
    cases heq
    obtain ⟨_, _, _, _, hpace⟩ := hprep.plan_eq
    obtain ⟨gs, r', hgs, hserve, hans⟩ := Run.ends_served S hfresh hfs (hpace ▸ hcap) past
    refine ⟨gs, .running r' false, ?_, hans, ?_⟩
    · rw [steps?_running, hgs]
      rfl
    · rwa [history_running]
  have hpresent : d.Present := present_of_steps h trivial
  have hacc := account_of_steps h
  generalize (new (Plan.prepare i p pace csv) shared now journal).history _ = H at hacc
  cases hacc with
  | @preparing p₀ A hne hc =>
    obtain ⟨evs, e', x, hevs, hx, hserve⟩ :=
      Errand.endsServed S (e := .mk p₀.strand p₀.shared) hne past
    obtain ⟨fs, p₁, hfs, hp₁, hhist⟩ := follows_errand hevs hserve
    refine .after fs hfs (by rwa [hhist, History.acts_solo]) ?_
    rw [hx] at hp₁
    have hall : (new (Plan.prepare i p pace csv) shared now journal).steps?
        ((es ++ fs).map .run) = some (.preparing p₁) := by
      rw [List.map_append, steps?_append, h]
      exact hfs
    obtain ⟨A', hA'⟩ := course_of_preparing hall
    rw [hp₁] at hA'
    -- one more step refuses the upload or begins its run
    have hquiet : (preparing p₁).acts (.run (.move .main default)) = [] := by
      simp [acts, hp₁, Strand.moveActs, History.solo]
    have hone {d₁ : Dispatch} (hd₁ : step? (preparing p₁) (.run (.move .main default)) = some d₁)
        (past : List Call) (hend : ∀ past, AnswersServed S past d₁) :
        AnswersServed S past (.preparing p₁) := by
      refine .after [.move .main default] (by simp [steps?, hd₁]) ?_ (hend _)
      simp [history, hd₁, hquiet, History.acts, Services.Serve]
    cases x with
    | error r =>
      have hs : step? (preparing p₁) (.run (.move .main default)) = some (.refused p₁ r) := by
        simp [step?, prepare?, hp₁]
      exact hone hs _ fun _ => ⟨[], _, rfl, rfl, trivial⟩
    | ok plan =>
      have hs : step? (preparing p₁) (.run (.move .main default)) =
          some (.running (launch p₁ plan) false) := by
        simp [step?, prepare?, hp₁]
      have hnil : (launch p₁ plan).steps? [] = some (launch p₁ plan) := rfl
      exact hone hs _ (hrun (fresh_launch p₁ plan) hnil hA')
  | refused => exact ⟨[], _, rfl, rfl, trivial⟩
  | stopped => exact hpresent.elim
  | @running A es' r gone r₀ hc hfresh hes =>
    cases gone with
    | true => exact hpresent.elim
    | false => exact hrun hfresh hes hc past

end Dispatch

end Bulk

end Vetting
