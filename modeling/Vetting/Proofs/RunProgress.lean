import Vetting.Proofs.RunAccount

/-! # Runs come to their end

Every task of a run is finite, so a run can do no more than a number of steps that grows with its
rows. And it never stands still: as long as its client has no answer, some strand can go on once
time has passed, if only there are permits at all. A run that waits for a permit has a row under
way, because the permits given out are the live rows.

A bound is kept for each strand and for the phase, and every step lowers one of them. -/

namespace Vetting

variable {α : Type}

/-- A task that has at most `n` steps left, whatever it is told. A call is two steps. -/
inductive Task.Within : Nat → Task α → Prop where
  | done {n a} : Within (n + 1) (.done a)
  | call {n c next} : (∀ o, Within n (next o)) → Within (n + 2) (.call c next)
  | fresh {n next} : (∀ k, Within n (next k)) → Within (n + 1) (.fresh next)
  | clock {n next} : (∀ i, Within n (next i)) → Within (n + 1) (.clock next)
  | trip {n next} : (∀ b, Within n (next b)) → Within (n + 1) (.trip next)
  | latched {n next} : (∀ b, Within n (next b)) → Within (n + 1) (.latched next)
  | count {n m next} : Within n next → Within (n + 1) (.count m next)

namespace Task.Within

variable {β : Type} {m n : Nat} {t : Task α}

theorem succ (h : t.Within n) : t.Within (n + 1) := by
  induction h with
  | done => exact .done
  | call _ ih => exact .call ih
  | fresh _ ih => exact .fresh ih
  | clock _ ih => exact .clock ih
  | trip _ ih => exact .trip ih
  | latched _ ih => exact .latched ih
  | count _ ih => exact .count ih

theorem mono (h : t.Within m) (hle : m ≤ n) : t.Within n := by
  induction hle with
  | refl => exact h
  | step _ ih => exact ih.succ

theorem bind {f : α → Task β} (h : t.Within m) (hf : ∀ a, (f a).Within n) :
    (t.bind f).Within (n + m) := by
  induction h with
  | @done k a => exact (hf a).mono (Nat.le_add_right n (k + 1))
  | call _ ih => exact .call ih
  | fresh _ ih => exact .fresh ih
  | clock _ ih => exact .clock ih
  | trip _ ih => exact .trip ih
  | latched _ ih => exact .latched ih
  | count _ ih => exact .count ih

theorem require {t : Task (Except Refusal α)} {f : α → Task (Except Refusal β)} (h : t.Within m)
    (hf : ∀ a, (f a).Within (n + 1)) : (t.require f).Within (n + 1 + m) := by
  refine h.bind fun x => ?_
  cases x with
  | error r => exact .done
  | ok a => exact hf a

end Task.Within

namespace Strand

/-- A strand that has at most `n` steps left. -/
def Within (n : Nat) : Strand α → Prop
  | .ready t => t.Within n
  | .waiting _ next => 0 < n ∧ ∀ o, (next o).Within (n - 1)
  | .ended _ => True
  | .crashed => True

theorem Step.within {sh sh' : Shared} {s s' : Strand α} {A : List Act} {n : Nat}
    (h : Step sh s A s' sh') (hn : s.Within n) : 0 < n ∧ s'.Within (n - 1) := by
  cases h with
  | done => cases hn; exact ⟨by omega, trivial⟩
  | call => cases hn with | call hn => exact ⟨by omega, by omega, hn⟩
  | fresh => cases hn with | fresh hn => exact ⟨by omega, hn _⟩
  | clock i => cases hn with | clock hn => exact ⟨by omega, hn i⟩
  | trip => cases hn with | trip hn => exact ⟨by omega, hn _⟩
  | latched => cases hn with | latched hn => exact ⟨by omega, hn _⟩
  | count => cases hn with | count hn => exact ⟨by omega, hn⟩
  | reply o => exact ⟨hn.1, hn.2 o⟩
  | crash => exact ⟨hn.1, trivial⟩

theorem can_step {s : Strand α} (h : s.isOver = false) (clock : Instant) (sh : Shared)
    (f : (c : Call) → c.Outcome) :
    (∃ x, s.move? clock sh = some x) ∨ (∃ s', s.reply? f = some s') := by
  cases s with
  | ready t => cases t <;> exact .inl ⟨_, rfl⟩
  | waiting c next => exact .inr ⟨_, rfl⟩
  | ended => cases h
  | crashed => cases h

end Strand

namespace Tracking

theorem start_within (job : UInt64) : (start job).Within 3 := .call fun _ => .done

theorem attempt_within (job total : UInt64) : (attempt job total).Within 8 := by
  refine .call fun o => ?_
  cases o with
  | error e => exact .done
  | ok n =>
    refine .latched fun _ => .clock fun _ => .call fun o => ?_
    cases o with
    | error e => exact .done
    | ok u => exact .count .done

end Tracking

namespace Row

theorem log_within (b : Brief) (s : Submission) (r : Logbook.Remark) (time : Instant)
    (k : String → Outcome) {n : Nat} : (log b s r time k).Within (n + 6) :=
  .fresh fun _ => .clock fun _ => .clock fun _ => .call fun _ => .done

theorem recordSuccess_within (b : Brief) (s : Submission) (a : PartnerAnswer) (time : Instant)
    {n : Nat} : (recordSuccess b s a time).Within (n + 6) := by
  simp only [recordSuccess]
  split
  · exact .call fun _ => .done
  · exact log_within ..

theorem handle_within (b : Brief) (s : Submission) : (handle b s).Within 12 := by
  unfold handle
  split
  · exact .clock fun _ => log_within ..
  · refine .clock fun requestTime => .call fun o => ?_
    cases o with
    | ok a => exact recordSuccess_within ..
    | error e =>
      have hlog (n : Nat) : (log b s (Logbook.failed e) requestTime fun id =>
          .failed id e).Within (n + 6) := log_within ..
      refine .trip fun before => ?_
      cases before with
      | true => exact hlog 2
      | false => exact .call fun _ => hlog 0

end Row

namespace Bulk

/-! ## How much a run may still do -/

/-- A row that has at most `n` steps left, that of being taken note of included. -/
def RowState.Within (n : Nat) (row : RowState) : Prop :=
  if row.joined then row.strand.Within n else 0 < n ∧ row.strand.Within (n - 1)

/-- Rows that have at most `n` steps left together. -/
inductive RowsWithin : Nat → List RowState → Prop where
  | nil : RowsWithin 0 []
  | cons {m n row rows} : row.Within m → RowsWithin n rows → RowsWithin (m + n) (row :: rows)

theorem RowsWithin.append {m n : Nat} {rows : List RowState} {row : RowState}
    (h : RowsWithin n rows) (hrow : row.Within m) : RowsWithin (n + m) (rows ++ [row]) := by
  induction h with
  | nil => simpa using RowsWithin.cons hrow .nil
  | cons h _ ih => simpa [Nat.add_assoc] using RowsWithin.cons h ih

theorem RowsWithin.set {n i : Nat} {rows : List RowState} {row row' : RowState}
    (h : RowsWithin n rows) (hrow : rows[i]? = some row)
    (hless : ∀ {m}, row.Within m → 0 < m ∧ row'.Within (m - 1)) :
    0 < n ∧ RowsWithin (n - 1) (rows.set i row') := by
  induction h generalizing i with
  | nil => simp at hrow
  | @cons m n row₀ rows h hrows ih =>
    cases i with
    | zero =>
      cases hrow
      obtain ⟨hpos, hm⟩ := hless h
      refine ⟨by omega, ?_⟩
      rw [show m + n - 1 = (m - 1) + n by omega]
      exact .cons hm hrows
    | succ i =>
      obtain ⟨hpos, hn⟩ := ih (by simpa using hrow)
      refine ⟨by omega, ?_⟩
      rw [show m + n - 1 = m + (n - 1) by omega]
      exact .cons h hn

/-- A phase after which a run of `total` rows has at most `n` steps left, those of the rows it has
started apart. A row yet to be started counts 16: it passes the gate, maybe after a pause, is
started, makes its 12 steps, and is taken note of. -/
def Phase.Within (total n : Nat) : Phase → Prop
  | .starting s => 16 * total + 14 ≤ n ∧ s.Within (n - (16 * total + 14))
  | .admitting rest => n = 16 * rest.length + 13
  | .pausing _ rest => n = 16 * rest.length + 12
  | .acquiring rest => n = 16 * rest.length + 11
  | .joining => n = 10
  | .finalizing s => 0 < n ∧ s.Within (n - 1)
  | .over _ => True
  | .crashed => True

/-- Events by which nothing crashes, the clock shows `clock` and the services reply as `f` says. -/
def Event.Calm (clock : Instant) (f : (c : Call) → c.Outcome) : Event → Prop
  | .move _ i => i = clock
  | .reply _ g => g = f
  | .crash _ => False
  | _ => True

namespace Run

/-- A run that has at most `n` steps left. -/
def Within (n : Nat) (r : Run) : Prop :=
  ∃ m k, r.phase.Within r.plan.submissions.length m ∧ RowsWithin k r.rows ∧ n = m + k

variable {r r' : Run} {n : Nat}

theorem within_of_fresh (h : r.Fresh) : r.Within (16 * r.plan.submissions.length + 17) := by
  refine ⟨_, 0, ?_, by rw [h.rows_eq]; exact .nil, rfl⟩
  rw [h.phase_eq]
  exact ⟨by omega, by simpa [Strand.Within] using Tracking.start_within _⟩

/-- **Every step leaves less to do.** -/
theorem Step.within {X : History} (h : Step r X r') (hn : r.Within n) : ∃ m < n, r'.Within m := by
  obtain ⟨m, k, hm, hk, rfl⟩ := hn
  -- the rows are as they were, and the phase has less to do
  have phase {ph : Phase} (m' : Nat) (hph : r'.phase = ph) (hplan : r'.plan = r.plan)
      (hrows : r'.rows = r.rows) (hlt : m' < m)
      (hm' : ph.Within r.plan.submissions.length m') : ∃ n < m + k, r'.Within n :=
    ⟨m' + k, by omega, m', k, by rw [hph, hplan]; exact hm', by rw [hrows]; exact hk, rfl⟩
  cases h with
  | @start s A s' sh hph hs =>
    rw [hph] at hm
    obtain ⟨hle, hm⟩ := hm
    obtain ⟨hpos, hs'⟩ := hs.within hm
    refine phase (m - 1) rfl rfl rfl (by omega) ⟨by omega, ?_⟩
    rwa [Nat.sub_right_comm] at hs'
  | startCrash hph hs =>
    rw [hph] at hm
    obtain ⟨hpos, _⟩ := hs.within hm.2
    exact phase 0 rfl rfl rfl (by omega) trivial
  | opened hph =>
    rw [hph] at hm
    exact phase _ rfl rfl rfl (by have := hm.1; omega) rfl
  | overdrawn hph =>
    rw [hph] at hm
    exact phase 0 rfl rfl rfl (by have := hm.1; omega) trivial
  | passed hph =>
    rw [hph] at hm
    cases hm
    exact phase _ rfl rfl rfl (by simp) rfl
  | held hph =>
    rw [hph] at hm
    cases hm
    exact phase _ rfl rfl rfl (by simp) rfl
  | released hph =>
    rw [hph] at hm
    cases hm
    exact phase _ rfl rfl rfl (by simp) rfl
  | @spawned s rest p hph =>
    rw [hph] at hm
    cases hm
    have hrow : RowState.Within 13 ⟨s, .ready (Row.handle r.plan.brief s), false⟩ :=
      ⟨by omega, Row.handle_within _ _⟩
    refine ⟨_, ?_, _, _, rfl, hk.append hrow, rfl⟩
    simp only [List.length_cons]
    omega
  | allStarted hph =>
    refine phase 10 rfl rfl rfl ?_ rfl
    rcases hph with hph | hph
    · rw [hph] at hm
      cases hm
      simp
    · rw [hph] at hm
      cases hm
      simp
  | @joined i row hph hrow hj hover =>
    have hless {m : Nat} (hm : row.Within m) :
        0 < m ∧ RowState.Within (m - 1) { row with joined := true } := by
      simpa [RowState.Within, hj] using hm
    obtain ⟨hpos, hk'⟩ := hk.set hrow hless
    exact ⟨m + (k - 1), by omega, m, k - 1, hm, hk', rfl⟩
  | allJoined hph =>
    rw [hph] at hm
    cases hm
    exact phase 9 rfl rfl rfl (by omega) ⟨by omega, Tracking.attempt_within _ _⟩
  | finish hph hs =>
    rw [hph] at hm
    obtain ⟨hpos, hs'⟩ := hs.within hm.2
    exact phase (m - 1) rfl rfl rfl (by omega) ⟨by omega, hs'⟩
  | finishCrash hph hs =>
    rw [hph] at hm
    exact phase 0 rfl rfl rfl hm.1 trivial
  | finished hph =>
    rw [hph] at hm
    exact phase 0 rfl rfl rfl hm.1 trivial
  | @row i row A s' sh hrow hs =>
    have hless {m : Nat} (hm : row.Within m) :
        0 < m ∧ RowState.Within (m - 1) { row with strand := s' } := by
      simp only [RowState.Within] at hm ⊢
      split at hm
      · next hj => rw [if_pos hj]; exact hs.within hm
      · next hj =>
        obtain ⟨hpos, hs'⟩ := hs.within hm.2
        rw [if_neg hj]
        exact ⟨by omega, by omega, hs'⟩
    obtain ⟨hpos, hk'⟩ := hk.set hrow hless
    exact ⟨m + (k - 1), by omega, m, k - 1, by simpa using hm, by simpa using hk', rfl⟩

/-- **A run ends sooner or later**, whatever its services do: the events of its course, those of
the clock apart, are bounded by the number of its rows. -/
theorem countP_steps_le {es : List Event} (hn : r.Within n) (h : r.steps? es = some r') :
    es.countP (!·.isTick) ≤ n := by
  induction es generalizing r n with
  | nil => simp
  | cons e es ih =>
    obtain ⟨r₁, he, hes⟩ := Option.bind_eq_some_iff.mp h
    cases ht : e.isTick with
    | true =>
      have hn₁ : r₁.Within n := by
        cases e <;> cases ht
        rw [(eq_of_tick he).1]
        exact hn
      simpa [ht] using ih hn₁ hes
    | false =>
      obtain ⟨m, hlt, hm⟩ := (step_of_step? he ht).within hn
      have := ih hm hes
      simp only [List.countP_cons, ht]
      simp
      omega

/-! ## Permits -/

def live (r : Run) : Nat := r.rows.countP (!·.strand.isOver)

/-- The permits given out are the live rows. -/
def PermitsKept (r : Run) : Prop := r.permits.map (· + r.live) = r.plan.pace.cap

theorem permitsKept_of_fresh (h : r.Fresh) : r.PermitsKept := by
  simp [PermitsKept, live, h.rows_eq, h.permits_eq]

theorem countP_live_set {rows : List RowState} {i : Nat} {row : RowState}
    (hrow : rows[i]? = some row) (row' : RowState) (hlive : row.strand.isOver = false) :
    (rows.set i row').countP (!·.strand.isOver) + (if row'.strand.isOver then 1 else 0) =
      rows.countP (!·.strand.isOver) := by
  obtain ⟨hi, rfl⟩ := List.getElem?_eq_some_iff.mp hrow
  have hpos : 0 < rows.countP (!·.strand.isOver) :=
    List.countP_pos_iff.mpr ⟨rows[i], List.getElem_mem hi, by simp [hlive]⟩
  rw [List.countP_set hi]
  cases row'.strand.isOver <;> simp [hlive] <;> omega

/-- **The permits given out stay the live rows**, also when a row crashes. -/
theorem Step.permitsKept {X : History} (h : Step r X r') (hp : r.PermitsKept) : r'.PermitsKept := by
  cases h with
  | @spawned s rest p hph hgrant =>
    have hlive : (({ r with permits := p }.spawn s rest).live) = r.live + 1 := by
      simp [live, spawn, counting, Strand.isOver, List.countP_append]
    simp only [PermitsKept] at hp
    rw [PermitsKept, hlive]
    generalize hq : r.permits = q at hp hgrant
    cases hgrant with
    | unlimited => exact hp
    | taken n =>
      show (some n).map (· + (r.live + 1)) = r.plan.pace.cap
      rw [← hp]
      simp
      omega
  | @joined i row hph hrow hj hover =>
    have hlive : (r.rows.set i { row with joined := true }).countP (!·.strand.isOver) = r.live := by
      obtain ⟨hi, rfl⟩ := List.getElem?_eq_some_iff.mp hrow
      rw [List.countP_set hi]
      simp [hover, live]
    rw [PermitsKept, live, hlive]
    exact hp
  | @row i row A s' sh hrow hs =>
    have hlive := countP_live_set hrow { row with strand := s' } hs.not_over
    simp only [PermitsKept, live, setStrand, release] at hp ⊢
    rw [← hlive] at hp
    cases hover : s'.isOver with
    | true =>
      simp only [hover, if_true, Option.map_map, Function.comp_def] at hp ⊢
      simpa [Nat.add_assoc, Nat.add_comm 1] using hp
    | false => simpa [hover] using hp
  | _ => exact hp

theorem permitsKept_of_steps {r₀ : Run} {es : List Event} (hfresh : r₀.Fresh)
    (h : r₀.steps? es = some r) : r.PermitsKept :=
  steps_induction (P := fun _ r => r.PermitsKept) h (permitsKept_of_fresh hfresh) id
    fun hp hs => hs.permitsKept hp

/-! ## No standing still -/

/-- Some strand can go on once time has passed, without a crash, the clock showing `clock` and the
services replying as `f` says. -/
def GoesOn (clock : Instant) (f : (c : Call) → c.Outcome) (r : Run) : Prop :=
  ∃ now e r', r.step? (.tick now) = some r' ∧ (r'.step? e).isSome = true ∧ e.isTick = false ∧
    e.Calm clock f

variable {clock : Instant} {f : (c : Call) → c.Outcome}

theorem goesOn_of_step {e : Event} (h : (r.step? e).isSome = true) (ht : e.isTick = false)
    (hcalm : e.Calm clock f) : r.GoesOn clock f :=
  ⟨r.now, e, r, by simp [step?], h, ht, hcalm⟩

theorem goesOn_of_moveMain (h : (r.moveMain? clock).isSome = true) : r.GoesOn clock f :=
  goesOn_of_step (e := .move .main clock) h rfl rfl

theorem goesOn_of_row {i : Nat} {row : RowState} (hrow : r.rows[i]? = some row)
    (hlive : row.strand.isOver = false) : r.GoesOn clock f := by
  rcases Strand.can_step hlive clock r.shared f with ⟨x, hs⟩ | ⟨s', hs⟩
  · exact goesOn_of_step (e := .move (.row i) clock) (by simp [step?, moveRow?, hrow, hs]) rfl rfl
  · exact goesOn_of_step (e := .reply (.row i) f) (by simp [step?, hrow, hs]) rfl rfl

theorem goesOn_of_starting {s : Strand (Except ServiceError Unit)} (hph : r.phase = .starting s)
    (hne : s ≠ .crashed) : r.GoesOn clock f := by
  cases hover : s.isOver with
  | true =>
    cases s <;> cases hover
    · exact goesOn_of_moveMain (by simp [moveMain?, hph])
    · exact absurd rfl hne
  | false =>
    rcases Strand.can_step hover clock r.shared f with ⟨x, hs⟩ | ⟨s', hs⟩
    · apply goesOn_of_moveMain
      cases s <;> cases hover <;> simp [moveMain?, hph, hs]
    · exact goesOn_of_step (e := .reply .main f) (by simp [step?, hph, hs]) rfl rfl

theorem goesOn_of_finalizing {s : Strand (Except ServiceError Tracking.Final)}
    (hph : r.phase = .finalizing s) (hne : s ≠ .crashed) : r.GoesOn clock f := by
  cases hover : s.isOver with
  | true =>
    cases s <;> cases hover
    · exact goesOn_of_moveMain (by simp [moveMain?, hph])
    · exact absurd rfl hne
  | false =>
    rcases Strand.can_step hover clock r.shared f with ⟨x, hs⟩ | ⟨s', hs⟩
    · apply goesOn_of_moveMain
      cases s <;> cases hover <;> simp [moveMain?, hph, hs]
    · exact goesOn_of_step (e := .reply .main f) (by simp [step?, hph, hs]) rfl rfl

theorem goesOn_of_admitting {rest : List Submission} (hph : r.phase = .admitting rest) :
    r.GoesOn clock f := by
  apply goesOn_of_moveMain
  cases rest with
  | nil => simp [moveMain?, hph]
  | cons s rest => cases hg : r.gate.decide r.now <;> simp [moveMain?, hph, hg]

theorem goesOn_of_pausing {due : Nat} {rest : List Submission} (hph : r.phase = .pausing due rest) :
    r.GoesOn clock f := by
  refine ⟨max r.now due, .move .main clock, { r with now := max r.now due }, ?_, ?_, rfl, rfl⟩
  · exact if_pos (Nat.le_max_left r.now due)
  · simp only [step?, moveMain?, hph, if_pos (Nat.le_max_right r.now due), Option.isSome_some]

/-- If no permit is left, some row is under way and holds one. -/
theorem goesOn_of_acquiring {rest : List Submission} (hph : r.phase = .acquiring rest)
    (hp : r.PermitsKept) (hcap : r.plan.pace.cap ≠ some 0) : r.GoesOn clock f := by
  cases rest with
  | nil => exact goesOn_of_moveMain (by simp [moveMain?, hph])
  | cons s rest =>
    cases hleft : r.permits with
    | none => exact goesOn_of_moveMain (by simp [moveMain?, hph, hleft])
    | some n =>
      cases n with
      | succ n => exact goesOn_of_moveMain (by simp [moveMain?, hph, hleft])
      | zero =>
        have hlive : r.live ≠ 0 := by
          rintro hzero
          apply hcap
          rw [← hp, hleft, hzero]
          rfl
        obtain ⟨row, hmem, hrow⟩ := List.countP_pos_iff.mp (Nat.pos_of_ne_zero hlive)
        obtain ⟨i, hi⟩ := List.getElem?_of_mem hmem
        exact goesOn_of_row hi (by simpa using hrow)

theorem goesOn_of_joining (hph : r.phase = .joining) : r.GoesOn clock f := by
  cases hall : r.rows.all (·.joined) with
  | true => exact goesOn_of_moveMain (by simp [moveMain?, hph, hall])
  | false =>
    obtain ⟨row, hmem, hj⟩ := List.all_eq_false.mp hall
    obtain ⟨i, hi⟩ := List.getElem?_of_mem hmem
    cases hover : row.strand.isOver with
    | false => exact goesOn_of_row hi hover
    | true =>
      refine goesOn_of_step (e := .join i) ?_ rfl trivial
      have hj : row.joined = false := by simpa using hj
      cases hs : row.strand with
      | ended result => cases hf : result.fault <;> simp [step?, hph, hi, hj, hs, hf]
      | crashed => simp [step?, hph, hi, hj, hs]
      | ready | waiting => rw [hs] at hover; cases hover

/-- **A run whose client has no answer goes on**, whatever the services reply, unless it has no
permits to give. -/
theorem goesOn_of_steps {r₀ : Run} {es : List Event} (hfresh : r₀.Fresh)
    (h : r₀.steps? es = some r) (hcap : r₀.plan.pace.cap ≠ some 0) (hans : r.answer? = none)
    (clock : Instant) (f : (c : Call) → c.Outcome) : r.GoesOn clock f := by
  obtain ⟨A, R, B, hacc, _⟩ := account_of_steps hfresh h
  cases hph : r.phase with
  | starting s =>
    cases hacc.stage with
    | opening hopen =>
      rw [hph] at hopen
      cases hopen with | starting hne => exact goesOn_of_starting hph hne
    | overdrawn hcr => rw [hph] at hcr; cases hcr
    | fanning hrest => rw [hph] at hrest; cases hrest
    | closing hcl => rw [hph] at hcl; cases hcl
  | admitting rest => exact goesOn_of_admitting hph
  | pausing due rest => exact goesOn_of_pausing hph
  | acquiring rest =>
    exact goesOn_of_acquiring hph (permitsKept_of_steps hfresh h) (hacc.plan_eq ▸ hcap)
  | joining => exact goesOn_of_joining hph
  | finalizing s =>
    cases hacc.stage with
    | opening hopen => rw [hph] at hopen; cases hopen
    | overdrawn hcr => rw [hph] at hcr; cases hcr
    | fanning hrest => rw [hph] at hrest; cases hrest
    | closing hcl =>
      rw [hph] at hcl
      cases hcl with | finalizing hne => exact goesOn_of_finalizing hph hne
  | «over» o => cases o <;> simp [answer?, hph] at hans
  | crashed => simp [answer?, hph] at hans

theorem within_of_steps {r₀ : Run} {es : List Event} (hfresh : r₀.Fresh)
    (h : r₀.steps? es = some r) : ∃ n, r.Within n :=
  steps_induction (P := fun _ r => ∃ n, r.Within n) h ⟨_, within_of_fresh hfresh⟩ id
    fun ⟨_, hn⟩ hs => (hs.within hn).imp fun _ h => h.2

/-- A run whose client has no answer comes nearer to its end by the passing of time and an event by
which nothing crashes. -/
theorem nearer_of_steps {r₀ : Run} {es : List Event} (hfresh : r₀.Fresh)
    (h : r₀.steps? es = some r) (hcap : r₀.plan.pace.cap ≠ some 0) (hans : r.answer? = none)
    (hn : r.Within n) (clock : Instant) (f : (c : Call) → c.Outcome) :
    ∃ now e r₁ r₂, ∃ m < n, r.step? (.tick now) = some r₁ ∧ r₁.step? e = some r₂ ∧
      e.Calm clock f ∧ r₂.Within m := by
  obtain ⟨now, e, r₁, hr₁, hsome, ht, hcalm⟩ := goesOn_of_steps hfresh h hcap hans clock f
  obtain ⟨r₂, hr₂⟩ := Option.isSome_iff_exists.mp hsome
  have hn₁ : r₁.Within n := by rw [(eq_of_tick hr₁).1]; exact hn
  obtain ⟨m, hlt, hm⟩ := (step_of_step? hr₂ ht).within hn₁
  exact ⟨now, e, r₁, r₂, m, hlt, hr₁, hr₂, hcalm, hm⟩

/-- **A run can be brought to its end** from wherever it stands, whatever the services reply. -/
theorem ends_of_steps {r₀ : Run} {es : List Event} (hfresh : r₀.Fresh) (h : r₀.steps? es = some r)
    (hcap : r₀.plan.pace.cap ≠ some 0) (clock : Instant) (f : (c : Call) → c.Outcome) :
    ∃ fs r', r.steps? fs = some r' ∧ (∀ e ∈ fs, e.Calm clock f) ∧ r'.answer?.isSome = true := by
  obtain ⟨n, hn⟩ := within_of_steps hfresh h
  induction n using Nat.strongRecOn generalizing r es with
  | ind n ih =>
    cases hans : r.answer? with
    | some a => exact ⟨[], r, rfl, by simp, by rw [hans]; rfl⟩
    | none =>
      obtain ⟨now, e, r₁, r₂, m, hlt, hr₁, hr₂, hcalm, hm⟩ :=
        nearer_of_steps hfresh h hcap hans hn clock f
      have htwo : r.steps? [.tick now, e] = some r₂ := by simp [steps?, hr₁, hr₂]
      have hall : r₀.steps? (es ++ [.tick now, e]) = some r₂ := by
        rw [steps?_append, h]
        exact htwo
      obtain ⟨fs, r', hfs, hcalms, hend⟩ := ih m hlt hall hm
      refine ⟨[.tick now, e] ++ fs, r', by rw [steps?_append, htwo]; exact hfs, ?_, hend⟩
      intro x hx
      rcases List.mem_append.mp hx with hx | hx
      · rcases List.mem_cons.mp hx with rfl | hx
        · trivial
        · rw [List.mem_singleton.mp hx]; exact hcalm
      · exact hcalms x hx

theorem acts_calm {e : Event} (he : e.Calm clock f) : ∀ x ∈ r.acts e, x.2.isCrash = false := by
  have move {α : Type} {s : Strand α} {w : Who} {i : Instant} :
      ∀ x ∈ History.solo w (s.moveActs i r.shared), x.2.isCrash = false := by
    intro x hx
    have := (History.mem_solo.mp hx).2
    cases s with
    | ready t => cases t <;> simp_all [Strand.moveActs, Act.isCrash]
    | waiting | ended | crashed => cases this
  have reply {α : Type} {s : Strand α} {w : Who} {g : (c : Call) → c.Outcome} :
      ∀ x ∈ History.solo w (s.replyActs g), x.2.isCrash = false := by
    intro x hx
    have := (History.mem_solo.mp hx).2
    cases s with
    | waiting => simp_all [Strand.replyActs, Act.isCrash]
    | ready | ended | crashed => cases this
  cases e with
  | move w i => cases w <;> simp only [acts] <;> split <;> first | exact move | simp
  | reply w g => cases w <;> simp only [acts] <;> split <;> first | exact reply | simp
  | crash w => exact he.elim
  | join i => simp [acts]
  | tick now => simp [acts]

theorem history_calm {es : List Event} (hes : ∀ e ∈ es, e.Calm clock f) :
    ∀ x ∈ r.history es, x.2.isCrash = false := by
  induction es generalizing r with
  | nil => simp [history]
  | cons e es ih =>
    intro x hx
    simp only [history] at hx
    split at hx
    · rcases List.mem_append.mp hx with hx | hx
      · exact acts_calm (hes e List.mem_cons_self) x hx
      · exact ih (fun e he => hes e (List.mem_cons_of_mem _ he)) x hx
    · cases hx

/-- A run whose main strand did not crash has crashed only for want of permits. -/
theorem phase_ne_crashed {r₀ : Run} {es : List Event} (hfresh : r₀.Fresh)
    (h : r₀.steps? es = some r) (hmain : ∀ a ∈ (r₀.history es).of .main, a.isCrash = false)
    (hfits : r₀.plan.pace.capFits = true) : r.phase ≠ .crashed := by
  intro hph
  obtain ⟨A, R, B, hacc, hH⟩ := account_of_steps hfresh h
  obtain ⟨a, ha, hcrash⟩ := hacc.exists_crash hph hfits
  rw [hH] at hmain
  have hmem : a ∈ (History.solo Who.main A ++ R ++ .solo .main B).of .main := by
    rcases List.mem_append.mp ha with ha | ha <;> simp [ha]
  rw [hmain a hmem] at hcrash
  cases hcrash

/-- **A run whose main strand did not crash can be brought to its end**, whatever the services
reply, if there are permits and no more than can be given out. -/
theorem completes {r₀ : Run} {es : List Event} (hfresh : r₀.Fresh) (h : r₀.steps? es = some r)
    (hmain : ∀ a ∈ (r₀.history es).of .main, a.isCrash = false)
    (hcap : r₀.plan.pace.cap ≠ some 0) (hfits : r₀.plan.pace.capFits = true) (clock : Instant)
    (f : (c : Call) → c.Outcome) :
    ∃ fs r' o, r.steps? fs = some r' ∧ (∀ e ∈ fs, e.Calm clock f) ∧ r'.phase = .over o := by
  obtain ⟨fs, r', hfs, hcalm, hans⟩ := ends_of_steps hfresh h hcap clock f
  have hall : r₀.steps? (es ++ fs) = some r' := by rw [steps?_append, h]; exact hfs
  have hne : r'.phase ≠ .crashed := by
    refine phase_ne_crashed hfresh hall ?_ hfits
    rw [history_append h, History.of_append]
    intro a ha
    rcases List.mem_append.mp ha with ha | ha
    · exact hmain a ha
    · exact history_calm hcalm _ (History.mem_of.mp ha)
  cases hph : r'.phase with
  | «over» o => exact ⟨fs, r', o, hfs, hcalm, hph⟩
  | crashed => exact absurd hph hne
  | _ => simp [answer?, hph] at hans

end Run

end Bulk

end Vetting
