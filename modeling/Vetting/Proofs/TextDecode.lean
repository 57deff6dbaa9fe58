import Vetting.Proofs.MemberOrder
import Vetting.Proofs.PassedOver
import Vetting.Wire.Decode
import Vetting.Wire.Reader

/-! # Decoding a text is decoding its value

A shape is read in two ways: straight from a text, or from the JSON value that the text denotes.
Reading from the text decodes no more than it needs, and takes the members of an object in the
order of the text. Where it gets through it comes to what the value denotes. -/

namespace Vetting

namespace Wire

open Json (Cursor)
open Json.Reader

variable {ε α : Type} {c c₁ c₂ : Cursor} {room : Nat} {j : Json}

/-- Where both get through, `item` finds what the value read by `value` denotes, and both stop at
the same place. -/
def Agree (item : Cursor → Except ε (α × Cursor))
    (value : Cursor → Except Json.Fault (Json × Cursor)) (ofJson : Json → Except Mismatch α) :
    Prop :=
  ∀ {c a c₁ j c₂}, item c = .ok (a, c₁) → value c = .ok (j, c₂) → c₁ = c₂ ∧ ofJson j = .ok a

/-! ## Lists and objects -/

theorem readsItems_agree {item : Cursor → Except ε (α × Cursor)}
    {value : Cursor → Except Json.Fault (Json × Cursor)} {ofJson : Json → Except Mismatch α}
    (h : Agree item value ofJson) {first : Bool} {as : List α} {js : List Json}
    (hitems : ReadsItems item first c as c₁) (hvalues : ReadsItems value first c js c₂) :
    c₁ = c₂ ∧ itemsOf ofJson js = .ok as := by
  induction hitems generalizing js with
  | done hnone =>
    cases hvalues with
    | done => exact ⟨rfl, rfl⟩
    | item hsome => cases hnone.symm.trans hsome
  | item hsome ha _ ih =>
    cases hvalues with
    | done hnone => cases hnone.symm.trans hsome
    | item hsome' hj hvalues =>
      cases hsome.symm.trans hsome'
      obtain ⟨rfl, hd⟩ := h ha hj
      obtain ⟨rfl, hds⟩ := ih hvalues
      exact ⟨rfl, by simp [itemsOf, hd, hds, bind, Except.bind]⟩

theorem readsMembers_agree {value value' : Cursor → Except Json.Fault (Json × Cursor)}
    (h : Agree value value' .ok) {first : Bool} {ms ms' : List (String × Json)}
    (hms : ReadsMembers value first c ms c₁) (hms' : ReadsMembers value' first c ms' c₂) :
    ms = ms' ∧ c₁ = c₂ := by
  induction hms generalizing ms' with
  | done hnone =>
    cases hms' with
    | done => exact ⟨rfl, rfl⟩
    | member hsome => cases hnone.symm.trans hsome
  | member hsome hkey hcolon hv _ ih =>
    cases hms' with
    | done hnone => cases hnone.symm.trans hsome
    | member hsome' hkey' hcolon' hv' hms' =>
      cases hsome.symm.trans hsome'
      cases hkey.symm.trans hkey'
      cases hcolon.symm.trans hcolon'
      obtain ⟨rfl, hd⟩ := h hv hv'
      cases hd
      obtain ⟨rfl, rfl⟩ := ih hms'
      exact ⟨rfl, rfl⟩

theorem itemsOf_ok (js : List Json) : itemsOf .ok js = .ok js := by
  induction js with
  | nil => rfl
  | cons j js ih => simp [itemsOf, ih, bind, Except.bind]

/-- **A value is read alike in whatever room.** -/
theorem valueIn_agree (room room' : Nat) : Agree (valueIn room) (valueIn room') .ok := by
  induction room generalizing room' with
  | zero =>
    intro c j c₁ j' c₂ h h'
    cases reads_of_valueIn h with
    | plain _ _ hall =>
      cases (hall room').symm.trans h'
      exact ⟨rfl, rfl⟩
  | succ room ih =>
    intro c j c₁ j' c₂ h h'
    cases reads_of_valueIn h with
    | plain _ _ hall =>
      cases (hall room').symm.trans h'
      exact ⟨rfl, rfl⟩
    | list hopen hitems hend =>
      obtain ⟨_, _, _, hitems', hend', rfl⟩ := valueIn_list hopen h'
      obtain ⟨rfl, heq⟩ := readsItems_agree (ih _) hitems hitems'
      cases hend.symm.trans hend'
      cases (itemsOf_ok _).symm.trans heq
      exact ⟨rfl, rfl⟩
    | object hopen hmembers hend =>
      obtain ⟨_, _, _, hmembers', hend', rfl⟩ := valueIn_object hopen h'
      obtain ⟨rfl, rfl⟩ := readsMembers_agree (ih _) hmembers hmembers'
      cases hend.symm.trans hend'
      exact ⟨rfl, rfl⟩

/-! ## Values without parts -/

theorem ok_of_onText {r : Except Json.Fault α} {a : α} (h : onText r = .ok a) : r = .ok a := by
  cases r <;> cases h
  rfl

/-- A value without parts is the one the text denotes; at a list or an object its stand-in is no
leaf. -/
theorem scalar_agree {j' : Json} (h : scalar c = .ok (j, c₁)) (h' : valueIn room c = .ok (j', c₂)) :
    j = j' ∧ c₁ = c₂ ∨ j = .arr [] ∨ j = .obj [] := by
  unfold scalar at h
  simp only at h
  split at h
  · cases h
    exact .inr (.inl rfl)
  · cases h
    exact .inr (.inr rfl)
  · have hvalue : valueIn 0 c = .ok (j, c₁) := by
      rw [← valueIn_skipSpace]
      exact ok_of_onText h
    obtain ⟨rfl, heq⟩ := valueIn_agree 0 room hvalue h'
    cases heq
    exact .inl ⟨rfl, rfl⟩

theorem Leaf.ofJson_arr (l : Leaf) (v : l.Val) : l.ofJson (.arr []) ≠ .ok v := by
  cases l <;> nofun

theorem Leaf.ofJson_obj (l : Leaf) (v : l.Val) : l.ofJson (.obj []) ≠ .ok v := by
  cases l <;> nofun

theorem Leaf.read_agree (l : Leaf) (room : Nat) : Agree l.read (valueIn room) l.ofJson := by
  intro c v c₁ j c₂ h h'
  unfold Leaf.read at h
  obtain ⟨⟨j', c'⟩, hscalar, h⟩ := ok_of_bind h
  simp only at h
  split at h
  · next v' hv =>
    cases h
    rcases scalar_agree hscalar h' with ⟨rfl, rfl⟩ | rfl | rfl
    · exact ⟨rfl, hv⟩
    · exact absurd hv (l.ofJson_arr v)
    · exact absurd hv (l.ofJson_obj v)
  · cases h

/-! ## Statuses -/

theorem statusName_ok {s : JobStatus} (h : statusName c = .ok (s, c₁)) :
    ∃ name, Json.Quoted.read c = .ok (name, c₁) ∧ JobStatus.ofName? name = some s := by
  unfold statusName at h
  obtain ⟨⟨name, c'⟩, hname, h⟩ := ok_of_bind h
  simp only at h
  split at h
  · next s' hs =>
    cases h
    exact ⟨name, ok_of_onText hname, hs⟩
  · cases h

theorem refuse_ne_ok {expected : String} {a : α} : refuse expected c ≠ .ok a := by
  intro h
  obtain ⟨⟨j, c'⟩, _, h⟩ := ok_of_bind h
  cases h

/-- How a status is read: by its name, or from an object whose only key is its name. -/
inductive ReadsStatus (c : Cursor) (s : JobStatus) : Cursor → Prop where
  | name {name : String} {c' : Cursor} : c.skipSpace.peek = some 0x22 →
      Json.Quoted.read c.skipSpace.skip = .ok (name, c') → JobStatus.ofName? name = some s →
      ReadsStatus c s c'
  | object {name : String} {c₃ c₄ c₅ : Cursor} : c.skipSpace.peek = some 0x7B →
      c.skipSpace.skip.skipSpace.peek = some 0x22 →
      Json.Quoted.read c.skipSpace.skip.skipSpace.skip = .ok (name, c₃) →
      JobStatus.ofName? name = some s → colon c₃ = .ok c₄ → scalar c₄ = .ok (.null, c₅) →
      c₅.skipSpace.peek = some 0x7D → ReadsStatus c s c₅.skipSpace.skip

theorem readsStatus_of_readStatus {s : JobStatus} (h : readStatus room c = .ok (s, c₁)) :
    ReadsStatus c s c₁ := by
  unfold readStatus at h
  simp only at h
  split at h
  · cases h
  · next hquote =>
    obtain ⟨name, hname, hs⟩ := statusName_ok h
    exact .name hquote hname hs
  · next hbrace =>
    split at h
    · cases h
    · split at h
      · next hquote =>
        obtain ⟨⟨s', c₃⟩, hname, h⟩ := ok_of_bind h
        obtain ⟨name, hread, hs⟩ := statusName_ok hname
        obtain ⟨c₄, hcolon, h⟩ := ok_of_bind h
        obtain ⟨⟨j, c₅⟩, hnull, h⟩ := ok_of_bind h
        simp only at h
        split at h
        · split at h
          · next hend =>
            cases h
            exact .object hbrace hquote hread hs (ok_of_onText hcolon) hnull hend
          · cases h
          · cases h
        · cases h
      · cases h
      · obtain ⟨_, hrefuse, _⟩ := ok_of_bind h
        exact absurd hrefuse refuse_ne_ok
  · cases h

theorem readStatus_agree (room room' : Nat) :
    Agree (readStatus room) (valueIn room') statusOf := by
  intro c s c₁ j c₂ h h'
  cases readsStatus_of_readStatus h with
  | name hquote hname hs =>
    obtain ⟨t, htext, rfl⟩ := valueIn_text hquote h'
    cases hname.symm.trans htext
    exact ⟨rfl, by simp [statusOf, hs]⟩
  | @object name c₃ c₄ c₅ hbrace hquote hname hs hcolon hnull hend =>
    obtain ⟨_, _, _, hmembers, hend', rfl⟩ := valueIn_object hbrace h'
    have hkey : nextKey true c.skipSpace.skip = .ok (some c.skipSpace.skip.skipSpace.skip) := by
      simp [nextKey, hquote]
    have hlast : nextKey false c₅ = .ok none := by simp [nextKey, hend]
    cases hmembers with
    | done hnone => cases hnone.symm.trans hkey
    | member hkey' hname' hcolon' hv hmembers =>
      cases hkey.symm.trans hkey'
      cases hname.symm.trans hname'
      cases hcolon.symm.trans hcolon'
      rcases scalar_agree hnull hv with ⟨rfl, rfl⟩ | heq | heq
      · cases hmembers with
        | done =>
          obtain ⟨_, rfl⟩ := endObject_ok hend'
          exact ⟨rfl, by simp [statusOf, Json.object, Json.putMember, hs]⟩
        | member hsome => cases hlast.symm.trans hsome
      · cases heq
      · cases heq

/-! ## Records -/

theorem ok_of_inRecord {r : Except Fault α} {a : α} (h : inRecord r = .ok a) : r = .ok a := by
  cases r <;> cases h
  rfl

/-- How the members of an object are taken in, one after the other. -/
inductive TakesIn {σ : Type} (member : String → σ → Cursor → Except Stop (σ × Cursor)) :
    Bool → σ → Cursor → σ → Cursor → Prop where
  | done {first : Bool} {c : Cursor} {slots : σ} : nextKey first c = .ok none →
      TakesIn member first slots c slots c
  | member {first : Bool} {c c₁ c₂ c₃ c' : Cursor} {slots slots₁ slots' : σ} {key : String} :
      nextKey first c = .ok (some c₁) → Json.Quoted.read c₁ = .ok (key, c₂) →
      member key slots c₂ = .ok (slots₁, c₃) → TakesIn member false slots₁ c₃ slots' c' →
      TakesIn member first slots c slots' c'

theorem takesIn_of_membersInto {σ : Type} {member : String → σ → Cursor → Except Stop (σ × Cursor)}
    {limit : Text.Bytes} {first : Bool} {slots slots' : σ}
    (h : membersInto member limit first slots c = .ok (slots', c₁)) :
    TakesIn member first slots c slots' c₁ := by
  induction limit generalizing first slots c with
  | nil => cases h
  | cons x limit ih =>
    unfold membersInto at h
    obtain ⟨more, hnext, h⟩ := ok_of_bind h
    have hnext := ok_of_onText (ok_of_inRecord hnext)
    cases more with
    | none =>
      cases h
      exact .done hnext
    | some c₂ =>
      obtain ⟨⟨key, c₃⟩, hkey, h⟩ := ok_of_bind h
      obtain ⟨⟨slots₁, c₄⟩, hmember, h⟩ := ok_of_bind h
      exact .member hnext (ok_of_onText (ok_of_inRecord hkey)) hmember (ih h)

/-- Where both get through, `member` takes in the value that `value` reads after the colon. -/
def Fields.MemberAgree (fs : Fields) (room room' : Nat) : Prop :=
  ∀ {key : String} {slots slots' : fs.Slots} {c c₁ c' c₂ : Cursor} {j : Json},
    fs.readMember room key slots c = .ok (slots', c₁) → colon c = .ok c' →
    valueIn room' c' = .ok (j, c₂) → c₁ = c₂ ∧ fs.ofMember key j slots = .ok slots'

theorem takesIn_agree {fs : Fields} {room' : Nat} (h : fs.MemberAgree room room') {first : Bool}
    {slots slots' : fs.Slots} {ms : List (String × Json)}
    (hinto : TakesIn (fun key slots c => fs.readMember room key slots c) first slots c slots' c₁)
    (hms : ReadsMembers (valueIn room') first c ms c₂) :
    c₁ = c₂ ∧ fs.takeIn ms slots = .ok slots' := by
  induction hinto generalizing ms with
  | done hnone =>
    cases hms with
    | done => exact ⟨rfl, rfl⟩
    | member hsome => cases hnone.symm.trans hsome
  | member hsome hkey hmember _ ih =>
    cases hms with
    | done hnone => cases hnone.symm.trans hsome
    | member hsome' hkey' hcolon hv hms =>
      cases hsome.symm.trans hsome'
      cases hkey.symm.trans hkey'
      obtain ⟨rfl, htake⟩ := h hmember hcolon hv
      obtain ⟨rfl, hrest⟩ := ih hms
      exact ⟨rfl, Fields.takeIn_of_ofMember htake hrest⟩

/-- Where both get through to the end of the list, the fields are those that its items denote. -/
def Fields.ItemsAgree (fs : Fields) (room room' : Nat) : Prop :=
  ∀ {whole : String} {done : Nat} {first : Bool} {vs : fs.Vals} {js : List Json}
    {c c₁ c₂ c₁' c₂' : Cursor}, fs.readItems room whole done first c = .ok (vs, c₁) →
    ReadsItems (valueIn room') first c js c₂ → endList c₁ = .ok c₁' → endList c₂ = .ok c₂' →
    c₁' = c₂' ∧ ∀ name total, fs.ofItems name total whole done js = .ok vs

theorem valueIn_null (h : valueIn room c = .ok (.null, c₂)) : c.skipSpace.peek = some 0x6E := by
  unfold valueIn at h
  simp only at h
  split at h
  · cases h
  · assumption
  · obtain ⟨_, _, h⟩ := ok_of_bind h
    cases h
  · obtain ⟨_, _, h⟩ := ok_of_bind h
    cases h
  · obtain ⟨_, _, h⟩ := ok_of_bind h
    cases h
  · cases room with
    | zero => cases h
    | succ room =>
      obtain ⟨_, _, h⟩ := ok_of_bind h
      obtain ⟨_, _, h⟩ := ok_of_bind h
      cases h
  · cases room with
    | zero => cases h
    | succ room =>
      obtain ⟨_, _, h⟩ := ok_of_bind h
      obtain ⟨_, _, h⟩ := ok_of_bind h
      cases h
  · obtain ⟨_, _, h⟩ := ok_of_bind h
    cases h
  · split at h
    · obtain ⟨_, _, h⟩ := ok_of_bind h
      cases h
    · cases h

theorem Shape.ofJson_null (s : Shape) : (Shape.option s).ofJson .null = .ok none := rfl

theorem Shape.ofJson_option {s : Shape} {v : s.Val} (hnull : j ≠ .null) (h : s.ofJson j = .ok v) :
    (Shape.option s).ofJson j = .ok (some v) := by
  have hsome : (do let v ← s.ofJson j; .ok (some v) : Except Mismatch (Option s.Val)) =
      .ok (some v) := by
    rw [h]
    rfl
  cases j with
  | null => exact absurd rfl hnull
  | bool | num | str | arr | obj => exact hsome

theorem Shape.ofJson_list (s : Shape) (items : List Json) :
    (Shape.list s).ofJson (.arr items) = itemsOf (fun j => s.ofJson j) items := rfl

theorem Shape.ofJson_items (name : String) (fs : Fields) (items : List Json) :
    (Shape.record name fs).ofJson (.arr items) =
      fs.ofItems name items.length (fs.describe name) 0 items := rfl

theorem Shape.ofJson_members (name : String) (fs : Fields) (ms : List (String × Json)) :
    (Shape.record name fs).ofJson (.obj ms) =
      fs.takeIn ms fs.noSlots >>= fun slots => fs.settle slots := rfl

/-- In whatever room, what is read from a text is what its value denotes. -/
def Shape.ReadsTrue (s : Shape) : Prop :=
  ∀ room room', Agree (s.read room) (valueIn room') s.ofJson

theorem Shape.ReadsTrue.option {s : Shape} (ih : s.ReadsTrue) : (Shape.option s).ReadsTrue := by
  intro room room' c v c₁ j c₂ h h'
  simp only [Shape.read] at h
  split at h
  · next hn =>
    obtain ⟨c', hword, h⟩ := ok_of_bind h
    cases h
    have hword := ok_of_onText hword
    unfold valueIn at h'
    simp only [hn, hword, bind, Except.bind, pure, Except.pure] at h'
    cases h'
    exact ⟨rfl, s.ofJson_null⟩
  · next hn =>
    obtain ⟨⟨v', c'⟩, hv, h⟩ := ok_of_bind h
    cases h
    rw [← valueIn_skipSpace] at h'
    obtain ⟨rfl, hd⟩ := ih room room' hv h'
    have hne : j ≠ .null := by
      rintro rfl
      have hnull := valueIn_null h'
      rw [Cursor.skipSpace_skipSpace] at hnull
      exact hn hnull
    exact ⟨rfl, Shape.ofJson_option hne hd⟩

theorem Shape.ReadsTrue.list {s : Shape} (ih : s.ReadsTrue) : (Shape.list s).ReadsTrue := by
  intro room room' c v c₁ j c₂ h h'
  simp only [Shape.read] at h
  split at h
  · next hopen =>
    cases room with
    | zero => cases h
    | succ room =>
      obtain ⟨⟨vs, c'⟩, hvs, h⟩ := ok_of_bind h
      obtain ⟨c₁', hend, h⟩ := ok_of_bind h
      cases h
      obtain ⟨_, _, _, hitems, hend', rfl⟩ := valueIn_list hopen h'
      obtain ⟨rfl, hd⟩ := readsItems_agree (ih _ _) (readsItems_of_itemsFrom hvs) hitems
      cases (ok_of_onText hend).symm.trans hend'
      exact ⟨rfl, (s.ofJson_list _).trans hd⟩
  · exact absurd h refuse_ne_ok

theorem Shape.ReadsTrue.record {fs : Fields} (hmember : ∀ room room', fs.MemberAgree room room')
    (hitems : ∀ room room', fs.ItemsAgree room room') (name : String) :
    (Shape.record name fs).ReadsTrue := by
  intro room room' c v c₁ j c₂ h h'
  simp only [Shape.read] at h
  split at h
  · next hopen =>
    cases room with
    | zero => cases h
    | succ room =>
      simp only at h
      split at h
      · cases h
      · next vs c' hvs =>
        obtain ⟨c₁', hend, h⟩ := ok_of_bind h
        cases h
        obtain ⟨_, _, _, hjs, hend', rfl⟩ := valueIn_list hopen h'
        obtain ⟨rfl, hd⟩ := hitems _ _ hvs hjs (ok_of_onText hend) hend'
        exact ⟨rfl, (Shape.ofJson_items name fs _).trans (hd _ _)⟩
  · next hopen =>
    cases room with
    | zero => cases h
    | succ room =>
      simp only at h
      split at h
      · cases h
      · next slots c' hslots =>
        split at h
        · cases h
        · next vs hvs =>
          obtain ⟨c₁', hend, h⟩ := ok_of_bind h
          cases h
          obtain ⟨_, _, _, hms, hend', rfl⟩ := valueIn_object hopen h'
          obtain ⟨rfl, htake⟩ := takesIn_agree (hmember _ _) (takesIn_of_membersInto hslots) hms
          cases (ok_of_onText hend).symm.trans hend'
          obtain ⟨ns, hns, htake⟩ := Fields.takeIn_object htake
          refine ⟨rfl, ?_⟩
          rw [hns, Shape.ofJson_members, htake]
          exact hvs
  · exact absurd h refuse_ne_ok

theorem Fields.memberAgree_nil (room room' : Nat) : Fields.nil.MemberAgree room room' := by
  intro key slots slots' c c₁ c' c₂ j h hcolon hvalue
  simp only [Fields.readMember] at h
  obtain ⟨c₃, hcolon', h⟩ := ok_of_bind h
  obtain ⟨c₄, hpass, h⟩ := ok_of_bind h
  cases h
  cases (ok_of_onText (ok_of_inRecord hcolon')).symm.trans hcolon
  exact ⟨pass_end (ok_of_onText (ok_of_inRecord hpass)) hvalue, rfl⟩

theorem Fields.memberAgree_cons {own : String} {aliases : List String} {s : Shape}
    {missing : Missing} {brief : Bool} {rest : Fields} {room room' : Nat}
    (hs : s.ReadsTrue) (ih : rest.MemberAgree room room') :
    (Fields.cons own aliases s missing brief rest).MemberAgree room room' := by
  intro key slots slots' c c₁ c' c₂ j h hcolon hvalue
  obtain ⟨slot, slots⟩ := slots
  simp only [Fields.readMember] at h
  split at h
  · next hkey =>
    split at h
    · cases h
    · next hnone =>
      obtain ⟨c₃, hcolon', h⟩ := ok_of_bind h
      obtain ⟨⟨v, c₄⟩, hv, h⟩ := ok_of_bind h
      cases h
      cases (ok_of_onText (ok_of_inRecord hcolon')).symm.trans hcolon
      obtain ⟨rfl, hd⟩ := hs room room' (ok_of_inRecord hv) hvalue
      obtain rfl : slot = none := by simpa using hnone
      exact ⟨rfl, ofMember_own hkey hd⟩
  · next hkey =>
    obtain ⟨⟨slots₁, c₄⟩, hrest, h⟩ := ok_of_bind h
    cases h
    obtain ⟨rfl, htake⟩ := ih hrest hcolon hvalue
    exact ⟨rfl, ofMember_other hkey htake⟩

theorem Fields.itemsAgree_nil (room room' : Nat) : Fields.nil.ItemsAgree room room' := by
  intro whole done first vs js c c₁ c₂ c₁' c₂' h hjs hend hend'
  simp only [Fields.readItems] at h
  cases h
  obtain ⟨hclose, rfl⟩ := endList_ok hend
  have hnone : nextItem first c = .ok none := by simp [nextItem, hclose]
  cases hjs with
  | done =>
    obtain ⟨_, rfl⟩ := endList_ok hend'
    exact ⟨rfl, fun _ _ => rfl⟩
  | item hsome => cases hnone.symm.trans hsome

theorem Fields.itemsAgree_cons {own : String} {aliases : List String} {s : Shape}
    {missing : Missing} {brief : Bool} {rest : Fields} {room room' : Nat}
    (hs : s.ReadsTrue) (ih : rest.ItemsAgree room room') :
    (Fields.cons own aliases s missing brief rest).ItemsAgree room room' := by
  intro whole done first vs js c c₁ c₂ c₁' c₂' h hjs hend hend'
  simp only [Fields.readItems] at h
  obtain ⟨more, hnext, h⟩ := ok_of_bind h
  have hnext := ok_of_onText (ok_of_inRecord hnext)
  cases more with
  | none =>
    simp only at h
    split at h
    · next hfilled =>
      obtain ⟨⟨vs', c₃⟩, hrest, h⟩ := ok_of_bind h
      cases h
      cases hjs with
      | item hsome => cases hnext.symm.trans hsome
      | done hnone =>
        obtain ⟨rfl, hd⟩ := ih hrest (.done hnone) hend hend'
        refine ⟨rfl, fun name total => ?_⟩
        simp [Fields.ofItems, hfilled, hd name total, bind, Except.bind]
    · cases h
  | some c₃ =>
    obtain ⟨⟨v, c₄⟩, hv, h⟩ := ok_of_bind h
    obtain ⟨⟨vs', c₅⟩, hrest, h⟩ := ok_of_bind h
    cases h
    cases hjs with
    | done hnone => cases hnone.symm.trans hnext
    | item hsome hj hjs =>
      cases hnext.symm.trans hsome
      obtain ⟨rfl, hdv⟩ := hs room room' (ok_of_inRecord hv) hj
      obtain ⟨rfl, hd⟩ := ih hrest hjs hend hend'
      refine ⟨rfl, fun name total => ?_⟩
      simp [Fields.ofItems, hdv, hd name total, bind, Except.bind]

mutual

/-- **What is read from a text is what its value denotes**, whatever the shape. -/
theorem Shape.readsTrue : (s : Shape) → s.ReadsTrue
  | .any => fun room room' _ _ _ _ _ h h' => valueIn_agree room room' (ok_of_onText h) h'
  | .leaf l => fun _ room' => l.read_agree room'
  | .status => readStatus_agree
  | .option s => s.readsTrue.option
  | .list s => s.readsTrue.list
  | .record name fs => .record fs.memberAgree fs.itemsAgree name

theorem Fields.memberAgree : (fs : Fields) → (room room' : Nat) → fs.MemberAgree room room'
  | .nil, room, room' => Fields.memberAgree_nil room room'
  | .cons _ _ s _ _ rest, room, room' =>
    Fields.memberAgree_cons s.readsTrue (rest.memberAgree room room')

theorem Fields.itemsAgree : (fs : Fields) → (room room' : Nat) → fs.ItemsAgree room room'
  | .nil, room, room' => Fields.itemsAgree_nil room room'
  | .cons _ _ s _ _ rest, room, room' =>
    Fields.itemsAgree_cons s.readsTrue (rest.itemsAgree room room')

end

/-! ## Whole texts -/

/-- **A text decodes to what its value denotes.** -/
theorem Shape.ofJson_of_ofText {s : Shape} {b : Text.Bytes} {v : s.Val} (h : s.ofText b = .ok v)
    (hvalue : value b = .ok j) : s.ofJson j = .ok v := by
  obtain ⟨⟨v', c⟩, hread, h⟩ := ok_of_bind h
  obtain ⟨_, _, h⟩ := ok_of_bind h
  cases h
  obtain ⟨⟨j', c'⟩, hj, hvalue⟩ := ok_of_bind hvalue
  obtain ⟨_, _, hvalue⟩ := ok_of_bind hvalue
  cases hvalue
  exact (s.readsTrue _ _ hread hj).2

theorem Fields.allHold_of_ofText {name : String} {fs : Fields} {b : Text.Bytes} {vs : fs.Vals}
    {ms : List (String × Json)} (hplain : fs.Plain) (h : (Shape.record name fs).ofText b = .ok vs)
    (hvalue : value b = .ok (.obj ms)) : AllHold (ms.lookup ·) fs vs := by
  have hvs := Shape.ofJson_of_ofText h hvalue
  rw [Shape.ofJson_members] at hvs
  obtain ⟨slots, hslots, hsettle⟩ := ok_of_bind hvs
  exact allHold_of_settle fs hplain hslots hsettle

/-- A record is read from a list or an object. -/
theorem Shape.record_opens {name : String} {fs : Fields} {vs : fs.Vals}
    (h : (Shape.record name fs).read room c = .ok (vs, c₁)) :
    c.skipSpace.peek = some 0x5B ∨ c.skipSpace.peek = some 0x7B := by
  simp only [Shape.read] at h
  split at h
  · next hopen => exact .inl hopen
  · next hopen => exact .inr hopen
  · exact absurd h refuse_ne_ok

theorem mem_of_peek_skipSpace {x : UInt8} (h : c.skipSpace.peek = some x) : x ∈ c.rest := by
  obtain ⟨rest, place⟩ := c
  simp only [Cursor.skipSpace] at h
  induction rest generalizing place with
  | nil => cases h
  | cons y rest ih =>
    simp only [Cursor.skipWhileFrom] at h
    split at h
    · exact List.mem_cons_of_mem _ (ih _ h)
    · cases h
      exact List.mem_cons_self

/-- The text of a record has an opening bracket or brace. -/
theorem Shape.mem_of_ofText {name : String} {fs : Fields} {b : Text.Bytes} {vs : fs.Vals}
    (h : (Shape.record name fs).ofText b = .ok vs) : 0x5B ∈ b ∨ 0x7B ∈ b := by
  obtain ⟨⟨vs', c⟩, hread, _⟩ := ok_of_bind h
  exact (Shape.record_opens hread).imp mem_of_peek_skipSpace mem_of_peek_skipSpace

end Wire

end Vetting
