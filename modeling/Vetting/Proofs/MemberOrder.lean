import Vetting.Proofs.PassedLeaves
import Vetting.Wire.Decode

/-! # The members of an object and the fields of a record

A record takes in the members of an object one by one. As it takes each field once, members that
can be taken in can be taken in in any other order; and a key that comes again can only be one
without a field. So a record is the same whether it is read in the order of a text or from an
object, which keeps its members in the order of their keys, each key once.

What a field holds in the end depends on the member of its name alone. -/

namespace Vetting.Wire

namespace Fields

variable {own key key' : String} {aliases : List String} {s : Shape} {missing : Missing}
  {brief : Bool} {rest : Fields} {j j' : Json}

theorem ofMember_own {slots : rest.Slots} {v : s.Val} (hkey : key = own ∨ key ∈ aliases)
    (hj : s.ofJson j = .ok v) :
    (Fields.cons own aliases s missing brief rest).ofMember key j (none, slots) =
      .ok (some v, slots) := by
  simp only [ofMember, if_pos hkey, hj]
  rfl

theorem ofMember_other {slot : Option s.Val} {slots slots' : rest.Slots}
    (hkey : ¬ (key = own ∨ key ∈ aliases)) (hrest : rest.ofMember key j slots = .ok slots') :
    (Fields.cons own aliases s missing brief rest).ofMember key j (slot, slots) =
      .ok (slot, slots') := by
  simp only [ofMember, if_neg hkey, hrest]
  rfl

/-- A member is taken by the first field of its name, if that is still empty, or by a later one. -/
theorem ofMember_cons {slot : Option s.Val} {slots : rest.Slots}
    {σ : (Fields.cons own aliases s missing brief rest).Slots}
    (h : (Fields.cons own aliases s missing brief rest).ofMember key j (slot, slots) = .ok σ) :
    (key = own ∨ key ∈ aliases) ∧ slot = none ∧
        (∃ v, s.ofJson j = .ok v ∧ σ = (some v, slots)) ∨
      ¬ (key = own ∨ key ∈ aliases) ∧
        ∃ slots', rest.ofMember key j slots = .ok slots' ∧ σ = (slot, slots') := by
  simp only [ofMember] at h
  split at h
  · next hkey =>
    cases slot with
    | some v => cases h
    | none =>
      obtain ⟨v, hv, h⟩ := ok_of_bind h
      cases h
      exact .inl ⟨hkey, rfl, v, hv, rfl⟩
  · next hkey =>
    obtain ⟨slots', hrest, h⟩ := ok_of_bind h
    cases h
    exact .inr ⟨hkey, slots', hrest, rfl⟩

/-- Two members that are taken in one after the other can be taken in the other way round. -/
theorem ofMember_comm : (fs : Fields) → {σ σ₁ σ₂ : fs.Slots} → fs.ofMember key j σ = .ok σ₁ →
    fs.ofMember key' j' σ₁ = .ok σ₂ →
    ∃ σ', fs.ofMember key' j' σ = .ok σ' ∧ fs.ofMember key j σ' = .ok σ₂
  | .nil, σ, σ₁, σ₂, h, h' => ⟨(), rfl, rfl⟩
  | .cons own aliases s missing brief rest, (slot, slots), (slot₁, slots₁), (slot₂, slots₂),
      h, h' => by
    rcases ofMember_cons h with ⟨hkey, rfl, v, hv, heq⟩ | ⟨hkey, slots', hrest, heq⟩
    · cases heq
      rcases ofMember_cons h' with ⟨_, hnone, _⟩ | ⟨hkey', slots', hrest', heq'⟩
      · cases hnone
      · cases heq'
        exact ⟨_, ofMember_other hkey' hrest', ofMember_own hkey hv⟩
    · cases heq
      rcases ofMember_cons h' with ⟨hkey', rfl, v, hv, heq'⟩ | ⟨hkey', slots'', hrest', heq'⟩
      · cases heq'
        exact ⟨_, ofMember_own hkey' hv, ofMember_other hkey hrest⟩
      · cases heq'
        obtain ⟨σ', h₁, h₂⟩ := ofMember_comm rest hrest hrest'
        exact ⟨_, ofMember_other hkey' h₁, ofMember_other hkey h₂⟩

/-- A key that can be taken in twice is taken by no field. -/
theorem ofMember_twice : (fs : Fields) → {σ σ₁ σ₂ : fs.Slots} → fs.ofMember key j σ = .ok σ₁ →
    fs.ofMember key j' σ₁ = .ok σ₂ → σ₁ = σ ∧ σ₂ = σ
  | .nil, _, _, _, _, _ => ⟨rfl, rfl⟩
  | .cons own aliases s missing brief rest, (slot, slots), (slot₁, slots₁), (slot₂, slots₂),
      h, h' => by
    rcases ofMember_cons h with ⟨hkey, rfl, v, hv, heq⟩ | ⟨hkey, slots', hrest, heq⟩
    · cases heq
      rcases ofMember_cons h' with ⟨_, hnone, _⟩ | ⟨hkey', _⟩
      · cases hnone
      · exact absurd hkey hkey'
    · cases heq
      rcases ofMember_cons h' with ⟨hkey', _⟩ | ⟨_, slots'', hrest', heq'⟩
      · exact absurd hkey' hkey
      · cases heq'
        obtain ⟨rfl, rfl⟩ := ofMember_twice rest hrest hrest'
        exact ⟨rfl, rfl⟩

abbrev takeIn (fs : Fields) (ms : List (String × Json)) (σ : fs.Slots) : Except Mismatch fs.Slots :=
  membersOf (fun key j σ => fs.ofMember key j σ) ms σ

variable {fs : Fields} {σ σ₁ σ₂ : fs.Slots} {ms : List (String × Json)}

theorem takeIn_cons (h : fs.takeIn ((key, j) :: ms) σ = .ok σ₂) :
    ∃ σ₁, fs.ofMember key j σ = .ok σ₁ ∧ fs.takeIn ms σ₁ = .ok σ₂ := ok_of_bind h

theorem takeIn_of_ofMember (h : fs.ofMember key j σ = .ok σ₁) (hms : fs.takeIn ms σ₁ = .ok σ₂) :
    fs.takeIn ((key, j) :: ms) σ = .ok σ₂ := by
  simp [takeIn, membersOf, h, hms, bind, Except.bind]

theorem ofMember_of_last (h : fs.takeIn ms σ = .ok σ₁) (hlast : fs.ofMember key j σ₁ = .ok σ₂) :
    ∃ σ', fs.ofMember key j σ = .ok σ' ∧ fs.takeIn ms σ' = .ok σ₂ := by
  induction ms generalizing σ with
  | nil =>
    cases h
    exact ⟨σ₂, hlast, rfl⟩
  | cons m ms ih =>
    obtain ⟨σ₃, hm, h⟩ := takeIn_cons h
    obtain ⟨σ₄, hfirst, hms⟩ := ih h
    obtain ⟨σ', h₁, h₂⟩ := ofMember_comm fs hm hfirst
    exact ⟨σ', h₁, takeIn_of_ofMember h₂ hms⟩

theorem takeIn_putMember (h : fs.takeIn ms σ = .ok σ₁) (hlast : fs.ofMember key j σ₁ = .ok σ₂) :
    fs.takeIn (Json.putMember key j ms) σ = .ok σ₂ := by
  induction ms generalizing σ with
  | nil =>
    cases h
    exact takeIn_of_ofMember hlast rfl
  | cons m ms ih =>
    obtain ⟨k, v⟩ := m
    unfold Json.putMember
    split
    · obtain ⟨σ', h₁, h₂⟩ := ofMember_of_last h hlast
      exact takeIn_of_ofMember h₁ h₂
    · obtain ⟨σ₃, hm, hms⟩ := takeIn_cons h
      split
      · next hkey =>
        -- the key comes again, so it is taken by no field and replacing its value does nothing
        subst hkey
        obtain ⟨σ', hfirst, hms'⟩ := ofMember_of_last hms hlast
        obtain ⟨rfl, rfl⟩ := ofMember_twice fs hm hfirst
        exact takeIn_of_ofMember hfirst hms'
      · exact takeIn_of_ofMember hm (ih hms)

/-- **Members that can be taken in one by one make an object that comes to the same.** -/
theorem takeIn_object (h : fs.takeIn ms fs.noSlots = .ok σ) :
    ∃ ns, Json.object ms = .obj ns ∧ fs.takeIn ns fs.noSlots = .ok σ := by
  refine ⟨_, rfl, ?_⟩
  suffices hall : ∀ ms ns σ₁, fs.takeIn ns fs.noSlots = .ok σ₁ → fs.takeIn ms σ₁ = .ok σ →
      fs.takeIn (ms.foldl (fun ms m => Json.putMember m.1 m.2 ms) ns) fs.noSlots = .ok σ from
    hall ms [] _ rfl h
  intro ms
  induction ms with
  | nil =>
    intro ns σ₁ hns h
    cases h
    exact hns
  | cons m ms ih =>
    intro ns σ₁ hns h
    obtain ⟨σ₂, hm, h⟩ := takeIn_cons h
    exact ih _ _ (takeIn_putMember hns hm) h

/-! ## What the fields hold -/

/-- How the member of its name changes a field, if there is one: it fills an empty one. -/
inductive Filled (s : Shape) : Option Json → Option s.Val → Option s.Val → Prop where
  | kept {slot : Option s.Val} : Filled s none slot slot
  | taken {j : Json} {v : s.Val} : s.ofJson j = .ok v → Filled s (some j) none (some v)

theorem Filled.of_some {value? : Option Json} {v : s.Val} {slot : Option s.Val}
    (h : Filled s value? (some v) slot) : slot = some v := by
  cases h
  rfl

theorem lookup_other {j : Json} (h : own ≠ key) : ((key, j) :: ms).lookup own = ms.lookup own := by
  simp only [List.lookup_cons, beq_false_of_ne h]

/-- A field with one name changes by the member of that name, and the fields after it see all
others. -/
theorem takeIn_field {slot slot' : Option s.Val} {slots slots' : rest.Slots}
    (h : (Fields.cons own [] s missing brief rest).takeIn ms (slot, slots) =
      .ok (slot', slots')) :
    Filled s (ms.lookup own) slot slot' ∧
      ∃ ms', rest.takeIn ms' slots = .ok slots' ∧
        ∀ key, key ≠ own → ms'.lookup key = ms.lookup key := by
  induction ms generalizing slot slots with
  | nil =>
    cases h
    exact ⟨.kept, [], rfl, fun _ _ => rfl⟩
  | cons m ms ih =>
    obtain ⟨key, j⟩ := m
    obtain ⟨σ₁, hm, h⟩ := takeIn_cons h
    rcases ofMember_cons hm with ⟨hkey, rfl, v, hv, rfl⟩ | ⟨hkey, slots₁, hrest, rfl⟩
    · obtain rfl : key = own := by simpa using hkey
      obtain ⟨hfilled, ms', hms', hsame⟩ := ih h
      refine ⟨?_, ms', hms', fun key' hne => ?_⟩
      · rw [List.lookup_cons_self, hfilled.of_some]
        exact .taken hv
      · rw [hsame key' hne, lookup_other hne]
    · obtain ⟨hfilled, ms', hms', hsame⟩ := ih h
      have hne : own ≠ key := fun heq => hkey (.inl heq.symm)
      refine ⟨?_, (key, j) :: ms', takeIn_of_ofMember hrest hms', fun key' hne' => ?_⟩
      · rwa [lookup_other hne]
      · simp only [List.lookup_cons, hsame key' hne']

def names : Fields → List String
  | .nil => []
  | .cons own aliases _ _ _ rest => own :: aliases ++ rest.names

/-- No two fields go by the same name, and none by two. -/
def Plain : Fields → Prop
  | .nil => True
  | .cons own aliases _ _ _ rest => aliases = [] ∧ own ∉ rest.names ∧ rest.Plain

/-- What a field is where its name has this value, or none. -/
inductive Holds (s : Shape) (missing : Missing) : Option Json → s.Val → Prop where
  | absent {v : s.Val} : s.absent? missing = some v → Holds s missing none v
  | present {j : Json} {v : s.Val} : s.ofJson j = .ok v → Holds s missing (some j) v

theorem Filled.holds {value? : Option Json} {slot : Option s.Val} {v : s.Val}
    (h : Filled s value? none slot) (hv : slot.or (s.absent? missing) = some v) :
    Holds s missing value? v := by
  cases h with
  | kept => exact .absent hv
  | taken hj =>
    cases hv
    exact .present hj

/-- Each field is what the value of its name denotes. -/
def AllHold (value? : String → Option Json) : (fs : Fields) → fs.Vals → Prop
  | .nil, _ => True
  | .cons own _ s missing _ rest, (v, vs) =>
    Holds s missing (value? own) v ∧ AllHold value? rest vs

theorem AllHold.congr {value? value?' : String → Option Json} : (fs : Fields) → {vs : fs.Vals} →
    AllHold value? fs vs → (∀ key ∈ fs.names, value?' key = value? key) → AllHold value?' fs vs
  | .nil, _, _, _ => trivial
  | .cons own aliases s missing brief rest, (v, vs), h, hsame => by
    refine ⟨?_, AllHold.congr rest h.2 fun key hkey => hsame key ?_⟩
    · rw [hsame own (by simp [names])]
      exact h.1
    · simp [names, hkey]

theorem settle_cons {slot : Option s.Val} {slots : rest.Slots} {v : s.Val} {vs : rest.Vals}
    (h : (Fields.cons own aliases s missing brief rest).settle (slot, slots) = .ok (v, vs)) :
    slot.or (s.absent? missing) = some v ∧ rest.settle slots = .ok vs := by
  simp only [settle] at h
  split at h
  · cases h
  · next hv =>
    obtain ⟨vs', hvs, h⟩ := ok_of_bind h
    cases h
    exact ⟨hv, hvs⟩

/-- **Each field of a record is what the member of its name denotes.** -/
theorem allHold_of_settle : (fs : Fields) → fs.Plain → {ms : List (String × Json)} →
    {slots : fs.Slots} → {vs : fs.Vals} → fs.takeIn ms fs.noSlots = .ok slots →
    fs.settle slots = .ok vs → AllHold (ms.lookup ·) fs vs
  | .nil, _, _, _, _, _, _ => trivial
  | .cons own aliases s missing brief rest, hplain, ms, (slot, slots), (v, vs), h, hsettle => by
    obtain ⟨rfl, hown, hrest⟩ := hplain
    obtain ⟨hfilled, ms', hms', hsame⟩ := takeIn_field h
    obtain ⟨hv, hvs⟩ := settle_cons hsettle
    refine ⟨hfilled.holds hv, (allHold_of_settle rest hrest hms' hvs).congr rest fun key hkey => ?_⟩
    exact (hsame key fun heq => hown (heq ▸ hkey)).symm

end Fields

end Vetting.Wire
