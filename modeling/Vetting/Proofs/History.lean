import Vetting.Proofs.Course

/-! # Histories

A history lists what strands did, in the order in which they did it, each act with the strand that
did it. `ι` names the strands: those of a bulk run, all who finalize a job, or the strands of all
matters of a shift. -/

namespace Vetting

abbrev History (ι : Type) := List (ι × Act)

namespace History

variable {ι ν : Type} {H : History ι} {w : ι}

/-- What was done, by whichever strand. -/
def acts (H : History ι) : List Act := H.map Prod.snd

/-- What `f` tells of the acts, with the strand of each. -/
def owned (H : History ι) (f : Act → Option ν) : List (ι × ν) :=
  H.filterMap fun x => (f x.2).map (x.1, ·)

/-- The calls made, each with the strand that made it. -/
def calls (H : History ι) : List (ι × Call) := H.owned Act.call?

/-- The acts of one strand as a history. -/
def solo (w : ι) (A : List Act) : History ι := A.map (w, ·)

theorem solo_append (w : ι) (A B : List Act) : solo w (A ++ B) = solo w A ++ solo w B :=
  List.map_append

@[simp] theorem acts_append (H K : History ι) : acts (H ++ K) = acts H ++ acts K :=
  List.map_append

@[simp] theorem acts_solo (w : ι) (A : List Act) : acts (solo w A) = A := by
  simp [acts, solo, Function.comp_def]

@[simp] theorem calls_append (H K : History ι) : calls (H ++ K) = calls H ++ calls K :=
  List.filterMap_append

theorem calls_solo (w : ι) (A : List Act) : calls (solo w A) = (callsOf A).map (w, ·) := by
  rw [calls, owned, solo, callsOf, List.filterMap_map, List.map_filterMap]
  rfl

theorem map_snd_owned (H : History ι) (f : Act → Option ν) :
    (owned H f).map Prod.snd = (acts H).filterMap f := by
  rw [owned, acts, List.filterMap_map, List.map_filterMap]
  simp [Function.comp_def]

theorem calls_map_snd (H : History ι) : (calls H).map Prod.snd = callsOf (acts H) :=
  map_snd_owned H Act.call?

theorem mem_acts {a : Act} (h : (w, a) ∈ H) : a ∈ acts H := List.mem_map.mpr ⟨_, h, rfl⟩

theorem mem_solo {x : ι × Act} {A : List Act} : x ∈ solo w A ↔ x.1 = w ∧ x.2 ∈ A := by
  obtain ⟨v, a⟩ := x
  simp only [solo, List.mem_map, Prod.mk.injEq]
  constructor
  · rintro ⟨b, hb, rfl, rfl⟩
    exact ⟨rfl, hb⟩
  · rintro ⟨rfl, ha⟩
    exact ⟨a, ha, rfl, rfl⟩

section Of

variable [DecidableEq ι]

/-- What one strand did. -/
def of (H : History ι) (w : ι) : List Act :=
  H.filterMap fun x => if x.1 = w then some x.2 else none

@[simp] theorem of_append (H K : History ι) (w : ι) : of (H ++ K) w = of H w ++ of K w :=
  List.filterMap_append

@[simp] theorem of_nil (w : ι) : of [] w = [] := rfl

@[simp] theorem of_solo_self (w : ι) (A : List Act) : of (solo w A) w = A := by
  simp only [of, solo, List.filterMap_map, Function.comp_def, if_true, List.filterMap_some]

theorem of_solo_of_ne {v : ι} (h : v ≠ w) (A : List Act) : of (solo v A) w = [] := by
  simp [of, solo, h]

theorem mem_of {a : Act} : a ∈ of H w ↔ (w, a) ∈ H := by
  simp only [of, List.mem_filterMap, Option.ite_none_right_eq_some, Option.some.injEq]
  constructor
  · rintro ⟨_, hx, rfl, rfl⟩
    exact hx
  · intro h
    exact ⟨_, h, rfl, rfl⟩

theorem mem_acts_of_mem_of {a : Act} (h : a ∈ of H w) : a ∈ acts H := mem_acts (mem_of.mp h)

theorem of_eq_nil (h : ∀ x ∈ H, x.1 ≠ w) : of H w = [] := by
  simp only [of, List.filterMap_eq_nil_iff]
  intro x hx
  simp [h x hx]

end Of

end History

end Vetting
