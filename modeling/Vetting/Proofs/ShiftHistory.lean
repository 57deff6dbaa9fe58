import Vetting.Proofs.DrawnNumbers
import Vetting.Proofs.UploadLedger
import Vetting.Shift

/-! # What has been done while the desk runs

The history of a shift lists what the strands of all its matters did, each act with the matter and
the strand that did it. However the matters are woven together, the numbers drawn are 1, 2, 3 and so
on, and what a matter did by itself is what it would have done alone. -/

namespace Vetting

open Bulk (Who Dispatch)

/-- The numbers drawn by `A` when the latest number was `n` before and is `m` after. -/
def Draws (n : UInt64) (A : List Act) (m : UInt64) : Prop :=
  drawn A = [] ∧ m = n ∨ drawn A = [(n + 1).toNat] ∧ m = n + 1

theorem Draws.nothing (n : UInt64) : Draws n [] n := .inl ⟨rfl, rfl⟩

/-- A strand draws the number after the latest one, or none. -/
theorem Strand.Step.draws {α : Type} {sh sh' : Shared} {s s' : Strand α} {A : List Act}
    (h : s.Step sh A s' sh') : Draws sh.issued A sh'.issued := by
  cases h with
  | fresh => exact .inr ⟨rfl, rfl⟩
  | _ => exact .inl ⟨rfl, rfl⟩

namespace Bulk

theorem Run.Step.draws {r r' : Run} {H : History} (h : Run.Step r H r') :
    Draws r.shared.issued H.acts r'.shared.issued := by
  cases h with
  | start _ hs _ => simpa using hs.draws
  | startCrash _ hs => simpa using hs.draws
  | finish _ hs _ => simpa using hs.draws
  | finishCrash _ hs => simpa using hs.draws
  | row _ hs => simpa using hs.draws
  | _ => exact .nothing _

theorem Run.draws_of_step? {r r' : Run} {e : Bulk.Event} (h : r.step? e = some r') :
    Draws r.shared.issued (r.acts e).acts r'.shared.issued := by
  cases ht : e.isTick with
  | true =>
    cases e <;> cases ht
    rw [(eq_of_tick h).1]
    exact .nothing _
  | false => exact (step_of_step? h ht).draws

theorem Dispatch.draws_of_prepare? {p : Preparation} {e : Bulk.Event} {d : Dispatch}
    (h : prepare? p e = some d) :
    Draws p.shared.issued ((preparing p).acts (.run e)).acts d.shared.issued := by
  have hmain {A : List Act} {m : UInt64} (hA : Draws p.shared.issued A m) :
      Draws p.shared.issued (History.acts (.solo Who.main A)) m := by
    rwa [History.acts_solo]
  unfold prepare? at h
  split at h
  · split at h
    · next hs =>
      cases h
      simp only [acts, hs]
      exact .nothing _
    · next hs =>
      cases h
      simp only [acts, hs]
      exact .nothing _
    · obtain ⟨⟨s, sh, c⟩, hs, rfl⟩ := Option.map_eq_some_iff.mp h
      exact hmain (Strand.step_of_move? hs).1.draws
  · next f =>
    obtain ⟨s, hs, rfl⟩ := Option.map_eq_some_iff.mp h
    have hstep : p.strand.Step p.shared (p.strand.replyActs f) s p.shared :=
      Strand.step_of_reply? hs
    exact hmain hstep.draws
  · split at h
    · cases h
      exact .nothing _
    · cases h
  · cases h

theorem Dispatch.draws_of_step? {d d' : Dispatch} {e : Event} (h : d.step? e = some d') :
    Draws d.shared.issued (d.acts e).acts d'.shared.issued := by
  cases e with
  | leave =>
    cases d with
    | preparing | running => cases h; exact .nothing _
    | refused | stopped => cases h
  | run e =>
    cases d with
    | preparing p => exact draws_of_prepare? h
    | running r gone =>
      obtain ⟨r', hr, rfl⟩ := Option.map_eq_some_iff.mp h
      exact Run.draws_of_step? hr
    | refused | stopped => cases h

end Bulk

/-! ## Matters -/

namespace Matter

/-- What the strands of a matter do by one event when the latest sequence number is `issued`. -/
def acts (issued : UInt64) : Matter → Event → Bulk.History
  | upload d, .upload e => (d.issuing issued).acts e
  | single t, .errand e => .solo .main ((t.issuing issued).acts e)
  | id t, .errand e => .solo .main ((t.issuing issued).acts e)
  | _, _ => []

/-- The matter of an order that did `H`. -/
inductive Account : Order → Bulk.History → Matter → Prop where
  | upload {i p pace csv H d} : Dispatch.Ledger (Bulk.Plan.prepare i p pace csv) H d →
      Account (.upload i p pace csv) H (.upload d)
  | single {i p body A t} : Errand.Account (Single.execute i p body) A t →
      Account (.single i p body) (.solo .main A) (.single t)
  | id {p A t} : Errand.Account (Logbook.nextId p.letters) A t →
      Account (.id p) (.solo .main A) (.id t)

variable {o : Order} {H : Bulk.History} {m m' : Matter} {issued : UInt64} {e : Event}

theorem account_new (o : Order) (issued : UInt64) (now : Nat) :
    Account o [] (o.matter issued now) := by
  cases o with
  | upload i p pace csv => exact .upload (Dispatch.ledger_new ..)
  | single i p body => exact .single (A := []) (Errand.account_new ..)
  | id p => exact .id (A := []) (Errand.account_new ..)

theorem Account.step (h : Account o H m) (hs : m.step? issued e = some m') :
    Account o (H ++ m.acts issued e) m' := by
  cases h with
  | upload hd =>
    cases e with
    | errand e => cases hs
    | upload e =>
      obtain ⟨d', hd', rfl⟩ := Option.map_eq_some_iff.mp hs
      exact .upload ((hd.issuing issued).step hd')
  | single ht =>
    cases e with
    | upload e => cases hs
    | errand e =>
      obtain ⟨t', ht', rfl⟩ := Option.map_eq_some_iff.mp hs
      simp only [acts, ← History.solo_append]
      exact .single ((ht.issuing issued).step ht')
  | id ht =>
    cases e with
    | upload e => cases hs
    | errand e =>
      obtain ⟨t', ht', rfl⟩ := Option.map_eq_some_iff.mp hs
      simp only [acts, ← History.solo_append]
      exact .id ((ht.issuing issued).step ht')

theorem draws_of_step? (h : m.step? issued e = some m') :
    Draws issued (m.acts issued e).acts m'.issued := by
  cases m with
  | upload d =>
    cases e with
    | errand e => cases h
    | upload e =>
      obtain ⟨d', hd', rfl⟩ := Option.map_eq_some_iff.mp h
      cases d with
      | preparing | running => exact Dispatch.draws_of_step? hd'
      | refused | stopped => cases e <;> cases hd'
  | single t =>
    cases e with
    | upload e => cases h
    | errand e =>
      obtain ⟨t', ht', rfl⟩ := Option.map_eq_some_iff.mp h
      simp only [acts, History.acts_solo]
      exact (Errand.step_of_step? ht').draws
  | id t =>
    cases e with
    | upload e => cases h
    | errand e =>
      obtain ⟨t', ht', rfl⟩ := Option.map_eq_some_iff.mp h
      simp only [acts, History.acts_solo]
      exact (Errand.step_of_step? ht').draws

end Matter

/-! ## Shifts -/

namespace Shift

/-- What the strands of a shift's matters did, in the order in which they did it. -/
abbrev History := Vetting.History (Nat × Who)

namespace History

/-- What one matter did. -/
def at_ (H : History) (k : Nat) : Bulk.History :=
  H.filterMap fun x => if x.1.1 = k then some (x.1.2, x.2) else none

/-- What was done by matter `k`. -/
def ofMatter (k : Nat) (K : Bulk.History) : History := K.map fun x => ((k, x.1), x.2)

@[simp] theorem at_append (H K : History) (k : Nat) : at_ (H ++ K) k = at_ H k ++ at_ K k :=
  List.filterMap_append

@[simp] theorem at_ofMatter_self (k : Nat) (K : Bulk.History) : at_ (ofMatter k K) k = K := by
  simp [at_, ofMatter]

theorem at_ofMatter_of_ne {j k : Nat} (h : j ≠ k) (K : Bulk.History) :
    at_ (ofMatter j K) k = [] := by
  simp [at_, ofMatter, h]

theorem at_eq_nil {H : History} {k : Nat} (h : ∀ x ∈ H, x.1.1 ≠ k) : H.at_ k = [] := by
  simp only [at_, List.filterMap_eq_nil_iff]
  intro x hx
  simp [h x hx]

theorem of_at (H : History) (k : Nat) (w : Who) : (H.at_ k).of w = H.of (k, w) := by
  rw [at_, Vetting.History.of, Vetting.History.of, List.filterMap_filterMap]
  congr 1
  funext x
  obtain ⟨⟨j, v⟩, a⟩ := x
  by_cases hj : j = k <;> simp [hj]

theorem mem_acts_of_at {H : History} {k : Nat} {a : Act} (h : a ∈ (H.at_ k).acts) :
    a ∈ H.acts := by
  obtain ⟨x, hx, rfl⟩ := List.mem_map.mp h
  have hof : x.2 ∈ H.of (k, x.1) := H.of_at k x.1 ▸ Vetting.History.mem_of.mpr hx
  exact Vetting.History.mem_acts_of_mem_of hof

@[simp] theorem acts_ofMatter (k : Nat) (K : Bulk.History) :
    Vetting.History.acts (ofMatter k K) = K.acts := by
  simp [Vetting.History.acts, ofMatter]

end History

/-- What is done by one event. -/
def acts (s : Shift) : Event → History
  | .take _ _ => []
  | .go k e =>
    match s.matters[k]? with
    | some m => .ofMatter k (m.acts s.issued e)
    | none => []

/-- What is done by a sequence of events. -/
def history (s : Shift) : List Event → History
  | [] => []
  | e :: es =>
    match s.step? e with
    | some s' => s.acts e ++ s'.history es
    | none => []

/-- What is known of a shift that did `H`. -/
structure Account (H : History) (s : Shift) : Prop where
  drawn_eq : drawn H.acts = (List.range' 1 (drawn H.acts).length).map (· % 2 ^ 64)
  issued_eq : s.issued = .ofNat (drawn H.acts).length
  matter : ∀ {k m}, s.matters[k]? = some m → ∃ o, Matter.Account o (H.at_ k) m
  /-- Only matters that have come in act. -/
  started : ∀ x ∈ H, x.1.1 < s.matters.length

variable {H : History} {s s' : Shift}

theorem account_opened : Account [] opened where
  drawn_eq := rfl
  issued_eq := rfl
  matter := by simp [opened]
  started := by simp

/-- The numbers that are drawn next are those after the ones drawn before. -/
theorem Account.draws (h : Account H s) {A : List Act} {m : UInt64} (hA : Draws s.issued A m) :
    drawn H.acts ++ drawn A =
        (List.range' 1 (drawn H.acts ++ drawn A).length).map (· % 2 ^ 64) ∧
      m = .ofNat (drawn H.acts ++ drawn A).length := by
  have hdrawn := h.drawn_eq
  have hissued := h.issued_eq
  generalize drawn H.acts = D at hdrawn hissued
  rcases hA with ⟨hnil, rfl⟩ | ⟨hone, rfl⟩
  · rw [hnil, List.append_nil]
    exact ⟨hdrawn, hissued⟩
  · have hnext : s.issued + 1 = UInt64.ofNat (D.length + 1) := by rw [hissued]; simp
    rw [hone, hnext]
    simp only [List.length_append, List.length_singleton, List.range'_1_concat, List.map_append,
      List.map_singleton, and_true]
    rw [← hdrawn]
    simp [Nat.add_comm]

theorem Account.step {e : Event} (h : Account H s) (hs : s.step? e = some s') :
    Account (H ++ s.acts e) s' := by
  cases e with
  | take o now =>
    cases hs
    rw [show s.acts (.take o now) = [] from rfl, List.append_nil]
    refine ⟨h.drawn_eq, h.issued_eq, ?_, ?_⟩
    · intro k m hm
      rcases Nat.lt_trichotomy k s.matters.length with hk | rfl | hk
      · rw [List.getElem?_append_left hk] at hm
        exact h.matter hm
      · have hnil : H.at_ s.matters.length = [] :=
          History.at_eq_nil fun x hx => Nat.ne_of_lt (h.started x hx)
        simp only [List.getElem?_concat_length, Option.some.injEq] at hm
        subst hm
        rw [hnil]
        exact ⟨o, Matter.account_new o _ _⟩
      · rw [List.getElem?_eq_none (by simp; omega)] at hm
        cases hm
    · intro x hx
      have := h.started x hx
      simp only [List.length_append, List.length_singleton]
      omega
  | go k e =>
    obtain ⟨m, hm, hs⟩ := Option.bind_eq_some_iff.mp hs
    obtain ⟨m', hm', rfl⟩ := Option.map_eq_some_iff.mp hs
    have hk : k < s.matters.length := (List.getElem?_eq_some_iff.mp hm).1
    have hacts : s.acts (.go k e) = .ofMatter k (m.acts s.issued e) := by simp [acts, hm]
    obtain ⟨hdrawn, hissued⟩ := h.draws (Matter.draws_of_step? hm')
    rw [hacts]
    refine ⟨by simpa using hdrawn, by simpa using hissued, ?_, ?_⟩
    · intro j m₁ hj
      rw [List.getElem?_set] at hj
      rw [History.at_append]
      split at hj
      · next hkj =>
        subst hkj
        cases hj
        obtain ⟨o, hacc⟩ := h.matter hm
        rw [History.at_ofMatter_self]
        exact ⟨o, hacc.step hm'⟩
      · next hkj =>
        rw [History.at_ofMatter_of_ne hkj, List.append_nil]
        exact h.matter hj
    · intro x hx
      rw [List.length_set]
      rcases List.mem_append.mp hx with hx | hx
      · exact h.started x hx
      · obtain ⟨y, _, rfl⟩ := List.mem_map.mp hx
        exact hk

/-- **Every shift has an account.** -/
theorem account_of_steps {es : List Event} (h : opened.steps? es = some s) :
    Account (opened.history es) s := by
  suffices hall : ∀ es H s₀, s₀.steps? es = some s → Account H s₀ →
      Account (H ++ s₀.history es) s from hall es [] _ h account_opened
  intro es
  induction es with
  | nil =>
    intro H s₀ h hacc
    cases h
    simpa [history] using hacc
  | cons e es ih =>
    intro H s₀ h hacc
    obtain ⟨s₁, he, h⟩ := Option.bind_eq_some_iff.mp h
    simpa [history, he] using ih _ s₁ h (hacc.step he)

end Shift

end Vetting
