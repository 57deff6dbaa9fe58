import Vetting.Json.Reader
import Vetting.Proofs.PassedLeaves

/-! # Passing over a value ends where reading it ends

A reader of JSON texts reads the values it needs and passes over the rest. The two are different
programs: reading follows the nesting of the text and builds a value, passing over keeps a stack of
open brackets and builds nothing. Where both get through they stop at the same place, so a reader
that passes over a part goes on as one that reads all. -/

namespace Vetting.Json.Reader

open Text (Bytes)

/-- Passing over goes on after an item. -/
def passOn (bound : Bytes) (comma : Bool) (brackets : List Bracket) (c : Cursor) :
    Except Fault Cursor := do
  let (more, c) ← afterItem comma brackets c
  match more with
  | none => .ok c
  | some brackets =>
    let c ← passKey brackets c
    passFrom bound brackets c

theorem valueIn_skipSpace (room : Nat) (c : Cursor) :
    valueIn room c.skipSpace = valueIn room c := by
  unfold valueIn
  rw [Cursor.skipSpace_skipSpace]

variable {B : List Bracket} {c c₁ c₂ : Cursor} {bound : Bytes} {room : Nat} {j : Json}

/-- How the items of a list are read, one after the other. -/
inductive ReadsItems {ε α : Type} (item : Cursor → Except ε (α × Cursor)) :
    Bool → Cursor → List α → Cursor → Prop where
  | done {first : Bool} {c : Cursor} : nextItem first c = .ok none → ReadsItems item first c [] c
  | item {first : Bool} {c c₁ c₂ c' : Cursor} {a : α} {as : List α} :
      nextItem first c = .ok (some c₁) → item c₁ = .ok (a, c₂) → ReadsItems item false c₂ as c' →
      ReadsItems item first c (a :: as) c'

theorem readsItems_of_itemsFrom {ε α : Type} {lift : Fault → ε}
    {item : Cursor → Except ε (α × Cursor)} {limit : Bytes} {first : Bool} {as : List α}
    (h : itemsFrom lift item limit first c = .ok (as, c₂)) : ReadsItems item first c as c₂ := by
  induction limit generalizing first c as with
  | nil => cases h
  | cons x limit ih =>
    unfold itemsFrom at h
    split at h
    · cases h
    · next hnone =>
      cases h
      exact .done hnone
    · next hsome =>
      obtain ⟨⟨a, c₃⟩, ha, h⟩ := ok_of_bind h
      obtain ⟨⟨as, c₄⟩, has, h⟩ := ok_of_bind h
      cases h
      exact .item hsome ha (ih has)

/-- How the members of an object are read, one after the other. -/
inductive ReadsMembers (item : Cursor → Except Fault (Json × Cursor)) :
    Bool → Cursor → List (String × Json) → Cursor → Prop where
  | done {first : Bool} {c : Cursor} : nextKey first c = .ok none → ReadsMembers item first c [] c
  | member {first : Bool} {c c₁ c₂ c₃ c₄ c' : Cursor} {key : String} {v : Json}
      {rest : List (String × Json)} : nextKey first c = .ok (some c₁) →
      Quoted.read c₁ = .ok (key, c₂) → colon c₂ = .ok c₃ → item c₃ = .ok (v, c₄) →
      ReadsMembers item false c₄ rest c' → ReadsMembers item first c ((key, v) :: rest) c'

theorem readsMembers_of_membersFrom {item : Cursor → Except Fault (Json × Cursor)} {limit : Bytes}
    {first : Bool} {ms : List (String × Json)} (h : membersFrom item limit first c = .ok (ms, c₂)) :
    ReadsMembers item first c ms c₂ := by
  induction limit generalizing first c ms with
  | nil => cases h
  | cons x limit ih =>
    unfold membersFrom at h
    obtain ⟨more, hnext, h⟩ := ok_of_bind h
    cases more with
    | none =>
      cases h
      exact .done hnext
    | some c₃ =>
      obtain ⟨⟨key, c₄⟩, hkey, h⟩ := ok_of_bind h
      obtain ⟨c₅, hcolon, h⟩ := ok_of_bind h
      obtain ⟨⟨v, c₆⟩, hv, h⟩ := ok_of_bind h
      obtain ⟨⟨rest, c₇⟩, hrest, h⟩ := ok_of_bind h
      cases h
      exact .member hnext hkey hcolon hv (ih hrest)

/-- How a value is read: it is one without parts, read alike whatever the room, or a list, or an
object. -/
inductive Reads : Nat → Cursor → Json → Cursor → Prop where
  | plain {room : Nat} {c c₂ : Cursor} {j : Json} : c.skipSpace.peek ≠ some 0x5B →
      c.skipSpace.peek ≠ some 0x7B → (∀ room, valueIn room c = .ok (j, c₂)) → Reads room c j c₂
  | list {room : Nat} {c c' c₂ : Cursor} {items : List Json} : c.skipSpace.peek = some 0x5B →
      ReadsItems (valueIn room) true c.skipSpace.skip items c' → endList c' = .ok c₂ →
      Reads (room + 1) c (.arr items) c₂
  | object {room : Nat} {c c' c₂ : Cursor} {members : List (String × Json)} :
      c.skipSpace.peek = some 0x7B →
      ReadsMembers (valueIn room) true c.skipSpace.skip members c' → endObject c' = .ok c₂ →
      Reads (room + 1) c (Json.object members) c₂

theorem reads_of_valueIn (h : valueIn room c = .ok (j, c₂)) : Reads room c j c₂ := by
  by_cases hlist : c.skipSpace.peek = some 0x5B
  · cases room with
    | zero => simp [valueIn, hlist] at h
    | succ room =>
      simp only [valueIn, hlist] at h
      obtain ⟨⟨items, c'⟩, hitems, h⟩ := ok_of_bind h
      obtain ⟨c₂', hend, h⟩ := ok_of_bind h
      cases h
      exact .list hlist (readsItems_of_itemsFrom hitems) hend
  by_cases hobject : c.skipSpace.peek = some 0x7B
  · cases room with
    | zero => simp [valueIn, hobject] at h
    | succ room =>
      simp only [valueIn, hobject] at h
      obtain ⟨⟨members, c'⟩, hmembers, h⟩ := ok_of_bind h
      obtain ⟨c₂', hend, h⟩ := ok_of_bind h
      cases h
      exact .object hobject (readsMembers_of_membersFrom hmembers) hend
  refine .plain hlist hobject fun room' => ?_
  rw [← h]
  unfold valueIn
  simp only
  split <;> first | rfl | contradiction

theorem valueIn_text (hquote : c.skipSpace.peek = some 0x22) (h : valueIn room c = .ok (j, c₂)) :
    ∃ s, Quoted.read c.skipSpace.skip = .ok (s, c₂) ∧ j = .str s := by
  unfold valueIn at h
  simp only [hquote] at h
  obtain ⟨⟨s, c₃⟩, hread, h⟩ := ok_of_bind h
  cases h
  exact ⟨s, hread, rfl⟩

theorem valueIn_list (hopen : c.skipSpace.peek = some 0x5B) (h : valueIn room c = .ok (j, c₂)) :
    ∃ room' items c', ReadsItems (valueIn room') true c.skipSpace.skip items c' ∧
      endList c' = .ok c₂ ∧ j = .arr items := by
  cases reads_of_valueIn h with
  | plain hlist _ _ => exact absurd hopen hlist
  | object hobject _ _ => cases hopen.symm.trans hobject
  | list _ hitems hend => exact ⟨_, _, _, hitems, hend, rfl⟩

theorem valueIn_object (hopen : c.skipSpace.peek = some 0x7B) (h : valueIn room c = .ok (j, c₂)) :
    ∃ room' members c', ReadsMembers (valueIn room') true c.skipSpace.skip members c' ∧
      endObject c' = .ok c₂ ∧ j = Json.object members := by
  cases reads_of_valueIn h with
  | plain _ hobject _ => exact absurd hopen hobject
  | list hlist _ _ => cases hopen.symm.trans hlist
  | object _ hmembers hend => exact ⟨_, _, _, hmembers, hend, rfl⟩

theorem passFrom_skipSpace (h : passFrom bound B c = .ok c₁) :
    passFrom bound B c.skipSpace = .ok c₁ := by
  cases bound with
  | nil => cases h
  | cons x bound =>
    unfold passFrom at h ⊢
    rwa [Cursor.skipSpace_skipSpace]

theorem nextItem_some {first : Bool} {c' : Cursor} (h : nextItem first c = .ok (some c')) :
    c.skipSpace.peek ≠ some 0x5D ∧ ∃ b, c.skipSpace.peek = some b ∧
      if first then c' = c.skipSpace else b = 0x2C ∧ c' = c.skipSpace.skip.skipSpace := by
  unfold nextItem at h
  simp only at h
  split at h
  · cases h
  · cases h
  · next b hnot hb =>
    refine ⟨fun h => hnot (Option.some.inj (hb.symm.trans h)), b, hb, ?_⟩
    split at h
    · next hfirst =>
      cases h
      simp [hfirst]
    · next hfirst =>
      split at h
      · next hcomma =>
        split at h <;> cases h
        simp [hfirst, hcomma]
      · cases h

theorem nextKey_some {first : Bool} {c' : Cursor} (h : nextKey first c = .ok (some c')) :
    if first then c.skipSpace.peek = some 0x22 ∧ c' = c.skipSpace.skip
    else c.skipSpace.peek = some 0x2C ∧ c.skipSpace.skip.skipSpace.peek = some 0x22 ∧
      c' = c.skipSpace.skip.skipSpace.skip := by
  unfold nextKey at h
  simp only at h
  split at h
  · cases h
  · cases h
  · next b hnot hb =>
    split at h
    · next hfirst =>
      split at h <;> cases h
      next hquote => simp [hfirst, hb, hquote]
    · next hfirst =>
      split at h
      · next hcomma =>
        split at h <;> cases h
        next hquote => simp [hfirst, hb, hcomma, hquote]
      · cases h

theorem passOn_list_end {comma : Bool} (hend : c.skipSpace.peek = some 0x5D)
    (hpass : passOn bound comma (.list :: B) c = .ok c₁) :
    passOn bound true B c.skipSpace.skip = .ok c₁ := by
  simpa [passOn, afterItem, hend] using hpass

/-- Where reading comes to the next item of a list, passing over does. -/
theorem passOn_list_item {first : Bool} {c' : Cursor} (hnext : nextItem first c = .ok (some c'))
    (hpass : passOn bound (!first) (.list :: B) c = .ok c₁) :
    passFrom bound (.list :: B) c' = .ok c₁ := by
  obtain ⟨hopen, b, hb, hc'⟩ := nextItem_some hnext
  have hne : b ≠ 0x5D := by
    rintro rfl
    exact hopen hb
  cases first with
  | true =>
    simp only [if_true] at hc'
    subst hc'
    simpa [passOn, afterItem, hb, hne, passKey, bind, Except.bind] using hpass
  | false =>
    obtain ⟨rfl, rfl⟩ : b = 0x2C ∧ c' = c.skipSpace.skip.skipSpace := hc'
    have hskip : passFrom bound (.list :: B) c.skipSpace.skip = .ok c₁ := by
      simpa [passOn, afterItem, hb, passKey, bind, Except.bind] using hpass
    exact passFrom_skipSpace hskip

theorem passOn_object_end {comma : Bool} (hend : c.skipSpace.peek = some 0x7D)
    (hpass : passOn bound comma (.object :: B) c = .ok c₁) :
    passOn bound true B c.skipSpace.skip = .ok c₁ := by
  simpa [passOn, afterItem, hend] using hpass

theorem passKey_object (hquote : c.skipSpace.peek = some 0x22) :
    passKey (.object :: B) c = Quoted.pass c.skipSpace.skip >>= colon := by
  simp only [passKey, hquote]
  rfl

/-- Where reading comes to the next key of an object, passing over does. -/
theorem passOn_object_member {first : Bool} {c' : Cursor} (hnext : nextKey first c = .ok (some c'))
    (hpass : passOn bound (!first) (.object :: B) c = .ok c₁) :
    ∃ c₃ c₄, Quoted.pass c' = .ok c₃ ∧ colon c₃ = .ok c₄ ∧
      passFrom bound (.object :: B) c₄ = .ok c₁ := by
  have hkey : (passKey (.object :: B) (if first then c.skipSpace else c.skipSpace.skip) >>=
      passFrom bound (.object :: B)) = .ok c₁ ∧
      (if first then c.skipSpace else c.skipSpace.skip).skipSpace.peek = some 0x22 ∧
      (if first then c.skipSpace else c.skipSpace.skip).skipSpace.skip = c' := by
    have hc' := nextKey_some hnext
    cases first with
    | true =>
      obtain ⟨hquote, rfl⟩ := hc'
      refine ⟨?_, by simp [hquote]⟩
      simpa [passOn, afterItem, hquote, bind, Except.bind] using hpass
    | false =>
      obtain ⟨hcomma, hquote, rfl⟩ := hc'
      refine ⟨?_, by simp [hquote]⟩
      simpa [passOn, afterItem, hcomma, bind, Except.bind] using hpass
  obtain ⟨hpass, hquote, hc'⟩ := hkey
  rw [passKey_object hquote, hc'] at hpass
  obtain ⟨c₄, hkey, hpass⟩ := ok_of_bind hpass
  obtain ⟨c₃, hskip, hcolon⟩ := ok_of_bind hkey
  exact ⟨c₃, c₄, hskip, hcolon, hpass⟩

/-- Passing over goes on after each value that `item` reads. -/
def PassesOver (item : Cursor → Except Fault (Json × Cursor)) : Prop :=
  ∀ {B : List Bracket} {c c₁ c₂ : Cursor} {bound : Bytes} {j : Json}, item c = .ok (j, c₂) →
    passFrom bound B c = .ok c₁ → ∃ bound', passOn bound' true B c₂ = .ok c₁

theorem endList_ok (h : endList c = .ok c₂) :
    c.skipSpace.peek = some 0x5D ∧ c₂ = c.skipSpace.skip := by
  unfold endList at h
  simp only at h
  split at h <;> cases h
  next hend => exact ⟨hend, rfl⟩

theorem endObject_ok (h : endObject c = .ok c₂) :
    c.skipSpace.peek = some 0x7D ∧ c₂ = c.skipSpace.skip := by
  unfold endObject at h
  simp only at h
  split at h <;> cases h
  next hend => exact ⟨hend, rfl⟩

theorem passOn_of_items {item : Cursor → Except Fault (Json × Cursor)} (hitem : PassesOver item)
    {first : Bool} {items : List Json} {c' : Cursor} (hread : ReadsItems item first c items c')
    (hend : endList c' = .ok c₂) (hpass : passOn bound (!first) (.list :: B) c = .ok c₁) :
    ∃ bound', passOn bound' true B c₂ = .ok c₁ := by
  induction hread generalizing bound with
  | done =>
    obtain ⟨hclose, rfl⟩ := endList_ok hend
    exact ⟨bound, passOn_list_end hclose hpass⟩
  | item hnext ha _ ih =>
    obtain ⟨_, hpass⟩ := hitem ha (passOn_list_item hnext hpass)
    exact ih hend hpass

theorem passOn_of_members {item : Cursor → Except Fault (Json × Cursor)} (hitem : PassesOver item)
    {first : Bool} {members : List (String × Json)} {c' : Cursor}
    (hread : ReadsMembers item first c members c') (hend : endObject c' = .ok c₂)
    (hpass : passOn bound (!first) (.object :: B) c = .ok c₁) :
    ∃ bound', passOn bound' true B c₂ = .ok c₁ := by
  induction hread generalizing bound with
  | done =>
    obtain ⟨hclose, rfl⟩ := endObject_ok hend
    exact ⟨bound, passOn_object_end hclose hpass⟩
  | member hnext hkey hcolon hv _ ih =>
    obtain ⟨c₄, c₅, hskip, hcolon', hpass⟩ := passOn_object_member hnext hpass
    cases Quoted.pass_end hskip hkey
    cases hcolon.symm.trans hcolon'
    obtain ⟨_, hpass⟩ := hitem hv hpass
    exact ih hend hpass

theorem passOn_of_plain (hlist : c.skipSpace.peek ≠ some 0x5B)
    (hobject : c.skipSpace.peek ≠ some 0x7B) (hread : valueIn room c = .ok (j, c₂))
    (hpass : passFrom bound B c = .ok c₁) :
    ∃ bound', passOn bound' true B c₂ = .ok c₁ := by
  cases bound with
  | nil => cases hpass
  | cons x bound =>
    refine ⟨bound, ?_⟩
    unfold valueIn at hread
    simp only at hread
    split at hread
    · cases hread
    · next hp =>
      obtain ⟨c₃, hword, hread⟩ := ok_of_bind hread
      cases hread
      simp only [passFrom, hp, hword] at hpass
      exact hpass
    · next hp =>
      obtain ⟨c₃, hword, hread⟩ := ok_of_bind hread
      cases hread
      simp only [passFrom, hp, hword] at hpass
      exact hpass
    · next hp =>
      obtain ⟨c₃, hword, hread⟩ := ok_of_bind hread
      cases hread
      simp only [passFrom, hp, hword] at hpass
      exact hpass
    · next hp =>
      obtain ⟨⟨t, c₃⟩, htext, hread⟩ := ok_of_bind hread
      cases hread
      simp only [passFrom, hp] at hpass
      obtain ⟨c₄, hskip, hpass⟩ := ok_of_bind hpass
      cases Quoted.pass_end hskip htext
      exact hpass
    · next hp => exact absurd hp hlist
    · next hp => exact absurd hp hobject
    · next hp =>
      obtain ⟨⟨n, c₃⟩, hnum, hread⟩ := ok_of_bind hread
      cases hread
      simp only [passFrom, hp] at hpass
      obtain ⟨c₄, hskip, hpass⟩ := ok_of_bind hpass
      cases Numeral.pass_end hskip hnum
      exact hpass
    · next b _ _ _ _ _ _ _ hp =>
      split at hread
      · next hdigit =>
        obtain ⟨⟨n, c₃⟩, hnum, hread⟩ := ok_of_bind hread
        cases hread
        simp only [passFrom, hp, hdigit, if_true] at hpass
        obtain ⟨c₄, hskip, hpass⟩ := ok_of_bind hpass
        cases Numeral.pass_end hskip hnum
        exact hpass
      · cases hread

/-- **Passing over a value goes on where reading it ends.** -/
theorem passesOver_valueIn (room : Nat) : PassesOver (valueIn room) := by
  induction room with
  | zero =>
    intro B c c₁ c₂ bound j hread hpass
    cases reads_of_valueIn hread with
    | plain hlist hobject hall => exact passOn_of_plain hlist hobject hread hpass
  | succ room ih =>
    intro B c c₁ c₂ bound j hread hpass
    cases reads_of_valueIn hread with
    | plain hlist hobject hall => exact passOn_of_plain hlist hobject hread hpass
    | list hopen hitems hend =>
      cases bound with
      | nil => cases hpass
      | cons x bound =>
        simp only [passFrom, hopen] at hpass
        exact passOn_of_items ih hitems hend hpass
    | object hopen hmembers hend =>
      cases bound with
      | nil => cases hpass
      | cons x bound =>
        simp only [passFrom, hopen] at hpass
        exact passOn_of_members ih hmembers hend hpass

/-- **Passing over a value ends where reading it ends.** -/
theorem pass_end (hpass : pass c = .ok c₁) (hread : valueIn room c = .ok (j, c₂)) : c₁ = c₂ := by
  obtain ⟨bound, hend⟩ := passesOver_valueIn room hread hpass
  cases hend
  rfl

end Vetting.Json.Reader
