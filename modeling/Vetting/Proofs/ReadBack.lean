import Mathlib.Data.List.Basic
import Vetting.Proofs.MemberOrder
import Vetting.Proofs.WrittenInstants
import Vetting.Wire.Form

/-! # What is read back

A value is written with each field under its own name, and read back if the names tell the fields
apart. This is not so for every value: what is there and written as nothing would be taken for what
is missing, and no text denotes an instant beyond the calendar. But no such value is ever read.
Main statements: what has been read is written with all fields and no others, its instants in UTC,
and is read back. -/

namespace Vetting

namespace Json

/-- A member with a key of its own is put among the others. -/
theorem putMember_perm {key : String} {value : Json} {ms : List (String × Json)}
    (h : key ∉ ms.map Prod.fst) : (putMember key value ms).Perm ((key, value) :: ms) := by
  induction ms with
  | nil => exact .refl _
  | cons m ms ih =>
    obtain ⟨k, v⟩ := m
    simp only [List.map_cons, List.mem_cons, not_or] at h
    unfold putMember
    split
    · exact .refl _
    · rw [if_neg h.1]
      exact ((ih h.2).cons _).trans (.swap _ _ _)

/-- Members with keys of their own are the members of an object. -/
theorem object_perm {ms : List (String × Json)} (h : (ms.map Prod.fst).Nodup) :
    ∃ ns, object ms = .obj ns ∧ ns.Perm ms := by
  refine ⟨_, rfl, ?_⟩
  suffices hall : ∀ ms ns : List (String × Json), ((ns ++ ms).map Prod.fst).Nodup →
      (ms.foldl (fun ms m => putMember m.1 m.2 ms) ns).Perm (ns ++ ms) from hall ms [] h
  intro ms
  induction ms with
  | nil =>
    intro ns _
    rw [List.append_nil]
    exact .refl _
  | cons m ms ih =>
    intro ns hns
    have hmiddle : (ns ++ m :: ms).Perm (m :: (ns ++ ms)) := List.perm_middle
    have hnew := (hmiddle.map Prod.fst).nodup_iff.mp hns
    have hkey : m.1 ∉ ns.map Prod.fst := fun hmem =>
      (List.nodup_cons.mp hnew).1 (List.map_append ▸ List.mem_append_left _ hmem)
    have hput : (putMember m.1 m.2 ns).Perm ((m.1, m.2) :: ns) := putMember_perm hkey
    have hstep : ((putMember m.1 m.2 ns ++ ms).Perm (ns ++ m :: ms)) :=
      (hput.append_right ms).trans hmiddle.symm
    exact (ih _ ((hstep.map Prod.fst).nodup_iff.mpr hns)).trans hstep

end Json

namespace Wire

/-! ## Values that are read -/

/-- A value without parts that some JSON value denotes. -/
def Leaf.Readable : (l : Leaf) → l.Val → Prop
  | .instant, i => Instant.Datable i
  | _, _ => True

mutual

/-- A value that some JSON value denotes. -/
def Shape.Readable : (s : Shape) → s.Val → Prop
  | .any, _ => True
  | .leaf l, v => l.Readable v
  | .status, _ => True
  | .option s, v =>
    match v with
    | none => True
    | some v => s.Readable v ∧ s.toJson v ≠ .null
  | .list s, vs => List.Forall s.Readable vs
  | .record _ fs, vs => fs.Readable vs

def Fields.Readable : (fs : Fields) → fs.Vals → Prop
  | .nil, _ => True
  | .cons _ _ s _ _ rest, (v, vs) => s.Readable v ∧ rest.Readable vs

end

/-- The fields read so far are. -/
def Fields.SlotsReadable : (fs : Fields) → fs.Slots → Prop
  | .nil, _ => True
  | .cons _ _ s _ _ rest, (slot, slots) =>
    (∀ v, slot = some v → s.Readable v) ∧ rest.SlotsReadable slots

theorem Leaf.ofJson_instant (text : String) : Leaf.ofJson .instant (.str text) =
    match Instant.ofText text with
    | .ok i => .ok i
    | .error f => .error (.badInstant f) := rfl

/-- An instant is read from a text. -/
theorem Leaf.ofText_of_ofJson {j : Json} {i : Instant} (h : Leaf.ofJson .instant j = .ok i) :
    ∃ text, j = .str text ∧ Instant.ofText text = .ok i := by
  cases j with
  | str text =>
    rw [ofJson_instant] at h
    cases hread : Instant.ofText text with
    | ok i' =>
      rw [hread] at h
      obtain rfl : i' = i := Except.ok.inj h
      exact ⟨text, rfl, hread⟩
    | error f =>
      rw [hread] at h
      cases h
  | null => cases h
  | bool b => cases h
  | num n => cases h
  | arr items => cases h
  | obj ms => cases h

theorem Leaf.readable_of_ofJson : (l : Leaf) → {j : Json} → {v : l.Val} → l.ofJson j = .ok v →
    l.Readable v
  | .instant, j, v, h => by
    obtain ⟨text, -, hread⟩ := Leaf.ofText_of_ofJson h
    exact Instant.datable_of_ofText hread
  | .flag, _, _, _ => trivial
  | .text, _, _, _ => trivial
  | .word16, _, _, _ => trivial
  | .word64, _, _, _ => trivial
  | .int64, _, _, _ => trivial
  | .double, _, _, _ => trivial

theorem Leaf.readable_filler : (l : Leaf) → l.Readable l.filler
  | .instant => ⟨by decide, by decide, by decide, by decide⟩
  | .flag => trivial
  | .text => trivial
  | .word16 => trivial
  | .word64 => trivial
  | .int64 => trivial
  | .double => trivial

mutual

theorem Shape.readable_filler : (s : Shape) → s.Readable s.filler
  | .any => trivial
  | .leaf l => l.readable_filler
  | .status => trivial
  | .option _ => trivial
  | .list _ => trivial
  | .record _ fs => fs.readable_fillers

theorem Fields.readable_fillers : (fs : Fields) → fs.Readable fs.fillers
  | .nil => trivial
  | .cons _ _ s _ _ rest => ⟨s.readable_filler, rest.readable_fillers⟩

end

/-- What stands for a missing value is one that can be read. -/
theorem Shape.readable_of_absent {s : Shape} {missing : Missing} {v : s.Val}
    (h : s.absent? missing = some v) : s.Readable v := by
  have hfilled {s : Shape} {v : s.Val}
      (h : (if missing = .filled then some s.filler else none) = some v) : s.Readable v := by
    split at h
    · cases h
      exact s.readable_filler
    · cases h
  cases s with
  | option s =>
    cases h
    trivial
  | any => exact hfilled h
  | leaf l => exact hfilled h
  | status => exact hfilled h
  | list s => exact hfilled h
  | record name fs => exact hfilled h

theorem Shape.ofJson_option_eq {s : Shape} {j : Json} (hj : j ≠ .null) :
    (Shape.option s).ofJson j = (s.ofJson j >>= fun w => .ok (some w)) := by
  cases j with
  | null => exact absurd rfl hj
  | _ => rfl

theorem Shape.eq_some_of_ofJson {s : Shape} {j : Json} {v : (Shape.option s).Val} (hj : j ≠ .null)
    (h : (Shape.option s).ofJson j = .ok v) : ∃ w, s.ofJson j = .ok w ∧ v = some w := by
  rw [ofJson_option_eq hj] at h
  obtain ⟨w, hw, h⟩ := ok_of_bind h
  exact ⟨w, hw, (Except.ok.inj h).symm⟩

/-- What stands for something is not read as what is written as nothing. -/
theorem Shape.toJson_ne_null : (s : Shape) → {j : Json} → {v : s.Val} → j ≠ .null →
    s.ofJson j = .ok v → s.toJson v ≠ .null
  | .any, j, v, hj, h => by
    cases h
    exact hj
  | .leaf l, j, v, _, _ => by
    cases l <;> nofun
  | .status, j, v, _, _ => nofun
  | .option s, j, v, hj, h => by
    obtain ⟨w, hw, rfl⟩ := eq_some_of_ofJson hj h
    exact toJson_ne_null s hj hw
  | .list s, j, v, _, _ => nofun
  | .record _ fs, j, v, _, _ => nofun

theorem forall_of_itemsOf {α : Type} {item : Json → Except Mismatch α} {p : α → Prop}
    (hitem : ∀ j a, item j = .ok a → p a) {js : List Json} {as : List α}
    (h : itemsOf item js = .ok as) : ∀ a ∈ as, p a := by
  induction js generalizing as with
  | nil =>
    cases h
    nofun
  | cons j js ih =>
    obtain ⟨a, ha, h⟩ := ok_of_bind h
    obtain ⟨as', has, h⟩ := ok_of_bind h
    cases h
    exact List.forall_mem_cons.mpr ⟨hitem j a ha, ih has⟩

theorem Fields.slotsReadable_noSlots : (fs : Fields) → fs.SlotsReadable fs.noSlots
  | .nil => trivial
  | .cons _ _ _ _ _ rest => ⟨nofun, rest.slotsReadable_noSlots⟩

/-- A step that keeps a property of what is read so far keeps it over all members. -/
theorem membersOf_induction {σ : Type} {member : String → Json → σ → Except Mismatch σ}
    {p : σ → Prop} (hmember : ∀ key j s s', p s → member key j s = .ok s' → p s')
    {ms : List (String × Json)} {s s' : σ} (hs : p s) (h : membersOf member ms s = .ok s') :
    p s' := by
  induction ms generalizing s with
  | nil =>
    cases h
    exact hs
  | cons m ms ih =>
    obtain ⟨s₁, hm, h⟩ := ok_of_bind h
    exact ih (hmember _ _ _ _ hs hm) h

theorem Fields.readable_of_settle : (fs : Fields) → {slots : fs.Slots} → {vs : fs.Vals} →
    fs.SlotsReadable slots → fs.settle slots = .ok vs → fs.Readable vs
  | .nil, _, _, _, _ => trivial
  | .cons own aliases s missing brief rest, (slot, slots), (v, vs), hslots, h => by
    obtain ⟨hv, hvs⟩ := settle_cons h
    refine ⟨?_, readable_of_settle rest hslots.2 hvs⟩
    cases slot with
    | none => exact Shape.readable_of_absent hv
    | some w =>
      cases hv
      exact hslots.1 v rfl

mutual

/-- **Every value that is read can be.** -/
theorem Shape.readable_of_ofJson : (s : Shape) → {j : Json} → {v : s.Val} → s.ofJson j = .ok v →
    s.Readable v
  | .any, _, _, _ => trivial
  | .leaf l, _, _, h => l.readable_of_ofJson h
  | .status, _, _, _ => trivial
  | .option s, j, v, h => by
    by_cases hj : j = .null
    · subst hj
      cases h
      trivial
    · obtain ⟨w, hw, rfl⟩ := Shape.eq_some_of_ofJson hj h
      exact ⟨s.readable_of_ofJson hw, s.toJson_ne_null hj hw⟩
  | .list s, j, v, h => by
    cases j with
    | arr items =>
      exact List.forall_iff_forall_mem.mpr
        (forall_of_itemsOf (fun j a ha => s.readable_of_ofJson ha) h)
    | _ => cases h
  | .record name fs, j, v, h => by
    cases j with
    | obj members =>
      obtain ⟨slots, hslots, h⟩ := ok_of_bind h
      refine fs.readable_of_settle ?_ h
      exact membersOf_induction (fun key j σ σ' hσ h => fs.slotsReadable_of_ofMember hσ h)
        fs.slotsReadable_noSlots hslots
    | arr items => exact fs.readable_of_ofItems h
    | _ => cases h

theorem Fields.slotsReadable_of_ofMember : (fs : Fields) → {key : String} → {j : Json} →
    {σ σ' : fs.Slots} → fs.SlotsReadable σ → fs.ofMember key j σ = .ok σ' → fs.SlotsReadable σ'
  | .nil, _, _, _, _, _, _ => trivial
  | .cons own aliases s missing brief rest, key, j, (slot, slots), σ', hσ, h => by
    rcases Fields.ofMember_cons h with ⟨-, -, v, hv, rfl⟩ | ⟨-, slots', hrest, rfl⟩
    · refine ⟨fun w hw => ?_, hσ.2⟩
      cases hw
      exact s.readable_of_ofJson hv
    · exact ⟨hσ.1, rest.slotsReadable_of_ofMember hσ.2 hrest⟩

theorem Fields.readable_of_ofItems : (fs : Fields) → {name whole : String} → {total done : Nat} →
    {items : List Json} → {vs : fs.Vals} → fs.ofItems name total whole done items = .ok vs →
    fs.Readable vs
  | .nil, _, _, _, _, _, _, _ => trivial
  | .cons own aliases s missing brief rest, name, whole, total, done, items, vs, h => by
    cases items with
    | nil =>
      simp only [Fields.ofItems] at h
      split at h
      · obtain ⟨vs', hvs, h⟩ := ok_of_bind h
        cases h
        exact ⟨s.readable_filler, rest.readable_of_ofItems hvs⟩
      · cases h
    | cons j items =>
      obtain ⟨v, hv, h⟩ := ok_of_bind h
      obtain ⟨vs', hvs, h⟩ := ok_of_bind h
      cases h
      exact ⟨s.readable_of_ofJson hv, rest.readable_of_ofItems hvs⟩

end

/-! ## What is written -/

/-- The fields' own names. -/
def Fields.keys : Fields → List String
  | .nil => []
  | .cons own _ _ _ _ rest => own :: rest.keys

/-- A value without parts is written as itself, and an instant in UTC. -/
def Leaf.Written : (l : Leaf) → l.Val → Json → Prop
  | .instant, i, j => ∃ text, j = .str text ∧ Instant.IsUtcText i text
  | l, v, j => j = l.toJson v

mutual

/-- A JSON value has all fields of a record under their own names, and no others. -/
def Shape.Written : (s : Shape) → s.Val → Json → Prop
  | .any, v, j => j = v
  | .leaf l, v, j => l.Written v j
  | .status, status, j => j = .str (JobStatus.name status)
  | .option s, v, j =>
    match v with
    | none => j = .null
    | some v => s.Written v j
  | .list s, vs, j => ∃ js, j = .arr js ∧ List.Forall₂ s.Written vs js
  | .record _ fs, vs, j =>
    ∃ ms, j = .obj ms ∧ (ms.map Prod.fst).Perm fs.keys ∧ fs.Written vs ms

def Fields.Written : (fs : Fields) → fs.Vals → List (String × Json) → Prop
  | .nil, _, _ => True
  | .cons own _ s _ _ rest, (v, vs), ms =>
    (∃ j, (own, j) ∈ ms ∧ s.Written v j) ∧ rest.Written vs ms

end

mutual

/-- No field is left out when it is written, and none goes by a name that another one is written
under. -/
def Shape.isDistinct : Shape → Bool
  | .any => true
  | .leaf _ => true
  | .status => true
  | .option s => s.isDistinct
  | .list s => s.isDistinct
  | .record _ fs => fs.isDistinct

def Fields.isDistinct : Fields → Bool
  | .nil => true
  | .cons own aliases s _ brief rest =>
    !brief && s.isDistinct && rest.keys.all (fun key => key ≠ own && !aliases.contains key) &&
      rest.isDistinct

end

theorem Fields.isDistinct_cons {own : String} {aliases : List String} {s : Shape}
    {missing : Missing} {brief : Bool} {rest : Fields}
    (h : (Fields.cons own aliases s missing brief rest).isDistinct = true) :
    brief = false ∧ s.isDistinct = true ∧
      (∀ key ∈ rest.keys, ¬ (key = own ∨ key ∈ aliases)) ∧ rest.isDistinct = true := by
  simp only [isDistinct, Bool.and_eq_true, Bool.not_eq_true', List.all_eq_true] at h
  obtain ⟨⟨⟨hbrief, hs⟩, hkeys⟩, hrest⟩ := h
  refine ⟨hbrief, hs, fun key hkey => ?_, hrest⟩
  simpa using hkeys key hkey

/-- All fields are written, under their own names. -/
theorem Fields.keys_members : (fs : Fields) → fs.isDistinct = true → (vs : fs.Vals) →
    (fs.members vs).map Prod.fst = fs.keys
  | .nil, _, _ => rfl
  | .cons own aliases s missing brief rest, h, (v, vs) => by
    obtain ⟨rfl, -, -, hrest⟩ := isDistinct_cons h
    simp [members, keys, keys_members rest hrest vs]

theorem Fields.nodup_keys : (fs : Fields) → fs.isDistinct = true → fs.keys.Nodup
  | .nil, _ => List.nodup_nil
  | .cons own aliases s missing brief rest, h => by
    obtain ⟨-, -, hother, hrest⟩ := isDistinct_cons h
    exact List.nodup_cons.mpr ⟨fun hmem => hother own hmem (.inl rfl), nodup_keys rest hrest⟩

/-- The object of a record has the fields' members, under the fields' own names. -/
theorem Fields.object_members (fs : Fields) (h : fs.isDistinct = true) (vs : fs.Vals) :
    ∃ ns, Json.object (fs.members vs) = .obj ns ∧ ns.Perm (fs.members vs) ∧
      (ns.map Prod.fst).Perm fs.keys := by
  have hkeys := fs.keys_members h vs
  obtain ⟨ns, hobject, hperm⟩ := Json.object_perm (hkeys ▸ fs.nodup_keys h)
  exact ⟨ns, hobject, hperm, hkeys ▸ hperm.map Prod.fst⟩

theorem Leaf.written_toJson : (l : Leaf) → {v : l.Val} → l.Readable v → l.Written v (l.toJson v)
  | .instant, _, h => ⟨_, rfl, Instant.isUtcText_render h⟩
  | .flag, _, _ => rfl
  | .text, _, _ => rfl
  | .word16, _, _ => rfl
  | .word64, _, _ => rfl
  | .int64, _, _ => rfl
  | .double, _, _ => rfl

theorem forall₂_map {α : Type} {f : α → Json} {r : α → Json → Prop} {as : List α}
    (h : ∀ a ∈ as, r a (f a)) : List.Forall₂ r as (as.map f) := by
  induction as with
  | nil => exact .nil
  | cons a as ih =>
    obtain ⟨ha, has⟩ := List.forall_mem_cons.mp h
    exact .cons ha (ih has)

mutual

/-- **A value that can be read is written with all fields, and no others.** -/
theorem Shape.written_toJson : (s : Shape) → s.isDistinct = true → {v : s.Val} → s.Readable v →
    s.Written v (s.toJson v)
  | .any, _, _, _ => rfl
  | .leaf l, _, _, hv => l.written_toJson hv
  | .status, _, _, _ => rfl
  | .option s, h, v, hv => by
    cases v with
    | none => rfl
    | some v => exact s.written_toJson h hv.1
  | .list s, h, vs, hvs =>
    ⟨_, rfl, forall₂_map fun v hv => s.written_toJson h (List.forall_iff_forall_mem.mp hvs v hv)⟩
  | .record name fs, h, vs, hvs => by
    obtain ⟨ns, hobject, hperm, hkeys⟩ := fs.object_members h vs
    refine ⟨ns, hobject, hkeys, ?_⟩
    exact fs.written_members h hvs fun m hm => hperm.mem_iff.mpr hm

theorem Fields.written_members : (fs : Fields) → fs.isDistinct = true → {vs : fs.Vals} →
    fs.Readable vs → {ms : List (String × Json)} → (∀ m ∈ fs.members vs, m ∈ ms) →
    fs.Written vs ms
  | .nil, _, _, _, _, _ => trivial
  | .cons own aliases s missing brief rest, h, (v, vs), hvs, ms, hms => by
    obtain ⟨rfl, hs, -, hrest⟩ := Fields.isDistinct_cons h
    have hall : ∀ m ∈ (own, s.toJson v) :: rest.members vs, m ∈ ms := by
      simpa [Fields.members] using hms
    obtain ⟨hfirst, hmore⟩ := List.forall_mem_cons.mp hall
    exact ⟨⟨_, hfirst, s.written_toJson hs hvs.1⟩, rest.written_members hrest hvs.2 hmore⟩

end

/-! ## What is read back -/

/-- An integer within the bounds is read. -/
theorem Leaf.read_integer {α : Type} {l : Leaf} {lo hi i : Int} (f : Int → α) (hlo : lo ≤ i)
    (hhi : i ≤ hi) : (do
      let i ← l.integer lo hi (Json.ofInt i)
      return f i : Except Mismatch α) = .ok (f i) := by
  have hread : l.integer lo hi (Json.ofInt i) = .ok i := if_pos ⟨hlo, hhi⟩
  rw [hread]
  rfl

theorem Leaf.ofJson_word16 (n : UInt16) : Leaf.ofJson .word16 (Json.ofNat n.toNat) = .ok n := by
  have hlt := n.toNat_lt
  refine (read_integer (fun i => UInt16.ofNat i.toNat) (Int.natCast_nonneg n.toNat)
    (show (n.toNat : Int) ≤ 65535 by omega)).trans ?_
  exact congrArg Except.ok UInt16.ofNat_toNat

theorem Leaf.ofJson_word64 (n : UInt64) : Leaf.ofJson .word64 (Json.ofNat n.toNat) = .ok n := by
  have hlt := n.toNat_lt
  refine (read_integer (fun i => UInt64.ofNat i.toNat) (Int.natCast_nonneg n.toNat)
    (show (n.toNat : Int) ≤ 18446744073709551615 by omega)).trans ?_
  exact congrArg Except.ok UInt64.ofNat_toNat

theorem Leaf.ofJson_int64 (i : Int64) : Leaf.ofJson .int64 (Json.ofInt i.toInt) = .ok i :=
  (read_integer Int64.ofInt i.minValue_le_toInt i.toInt_le).trans
    (congrArg Except.ok (Int64.ofInt_toInt i))

theorem Leaf.ofJson_toJson : (l : Leaf) → {v : l.Val} → l.Readable v →
    l.ofJson (l.toJson v) = .ok v
  | .instant, i, h => by
    have hread : Instant.ofText (Instant.render i) = .ok i := (Instant.isUtcText_render h).ofText
    refine (Leaf.ofJson_instant _).trans ?_
    rw [hread]
  | .flag, _, _ => rfl
  | .text, _, _ => rfl
  | .word16, n, _ => ofJson_word16 n
  | .word64, n, _ => ofJson_word64 n
  | .int64, i, _ => ofJson_int64 i
  | .double, _, _ => rfl

/-- The fields' values as they are read. -/
def Fields.filled : (fs : Fields) → fs.Vals → fs.Slots
  | .nil, _ => ()
  | .cons _ _ _ _ _ rest, (v, vs) => (some v, rest.filled vs)

theorem Fields.settle_filled : (fs : Fields) → (vs : fs.Vals) → fs.settle (fs.filled vs) = .ok vs
  | .nil, _ => rfl
  | .cons own aliases s missing brief rest, (v, vs) => by
    simp only [filled, settle, Option.or, settle_filled rest vs]
    rfl

/-- Members without the names of a field are taken in by those after it. -/
theorem Fields.takeIn_others {own : String} {aliases : List String} {s : Shape} {missing : Missing}
    {brief : Bool} {rest : Fields} {ms : List (String × Json)} {slot : Option s.Val}
    {slots slots' : rest.Slots} (hms : ∀ m ∈ ms, ¬ (m.1 = own ∨ m.1 ∈ aliases))
    (h : rest.takeIn ms slots = .ok slots') :
    (Fields.cons own aliases s missing brief rest).takeIn ms (slot, slots) =
      .ok (slot, slots') := by
  induction ms generalizing slots with
  | nil =>
    cases h
    rfl
  | cons m ms ih =>
    obtain ⟨hm, hms⟩ := List.forall_mem_cons.mp hms
    obtain ⟨slots₁, hfirst, h⟩ := takeIn_cons h
    exact takeIn_of_ofMember (ofMember_other hm hfirst) (ih hms h)

theorem itemsOf_map {α : Type} {item : Json → Except Mismatch α} {f : α → Json} {as : List α}
    (h : ∀ a ∈ as, item (f a) = .ok a) : itemsOf item (as.map f) = .ok as := by
  induction as with
  | nil => rfl
  | cons a as ih =>
    obtain ⟨ha, has⟩ := List.forall_mem_cons.mp h
    simp only [List.map_cons, itemsOf, ha, ih has]
    rfl

mutual

/-- **A value that can be read is read back from what is written.** -/
theorem Shape.ofJson_toJson : (s : Shape) → s.isDistinct = true → {v : s.Val} → s.Readable v →
    s.ofJson (s.toJson v) = .ok v
  | .any, _, _, _ => rfl
  | .leaf l, _, _, hv => l.ofJson_toJson hv
  | .status, _, status, _ => by
    have hname := JobStatus.ofName?_name status
    show statusOf (.str (JobStatus.name status)) = .ok status
    rw [statusOf, hname]
  | .option s, h, v, hv => by
    cases v with
    | none => rfl
    | some v =>
      refine (Shape.ofJson_option_eq hv.2).trans ?_
      rw [s.ofJson_toJson h hv.1]
      rfl
  | .list s, h, vs, hvs =>
    itemsOf_map fun v hv => s.ofJson_toJson h (List.forall_iff_forall_mem.mp hvs v hv)
  | .record name fs, h, vs, hvs => by
    obtain ⟨ns, hobject, htaken⟩ := Fields.takeIn_object (fs.takeIn_members h hvs)
    have hwritten : (Shape.record name fs).toJson vs = .obj ns := hobject
    rw [hwritten]
    show (fs.takeIn ns fs.noSlots >>= fun slots => fs.settle slots) = .ok vs
    rw [htaken]
    exact fs.settle_filled vs

theorem Fields.takeIn_members : (fs : Fields) → fs.isDistinct = true → {vs : fs.Vals} →
    fs.Readable vs → fs.takeIn (fs.members vs) fs.noSlots = .ok (fs.filled vs)
  | .nil, _, _, _ => rfl
  | .cons own aliases s missing brief rest, h, (v, vs), hvs => by
    obtain ⟨rfl, hs, hother, hrest⟩ := Fields.isDistinct_cons h
    have hread := s.ofJson_toJson hs hvs.1
    have hmore := rest.takeIn_members hrest hvs.2
    refine Fields.takeIn_of_ofMember (Fields.ofMember_own (.inl rfl) hread) ?_
    refine Fields.takeIn_others (fun m hm => hother m.1 ?_) hmore
    rw [← rest.keys_members hrest vs]
    exact List.mem_map_of_mem hm

end

end Wire

end Vetting
