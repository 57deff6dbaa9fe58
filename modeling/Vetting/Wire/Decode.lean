import Vetting.Wire.Mismatch

/-!
Reading the values of a shape from JSON values. Members without a field are passed over. A list
stands for a record with its fields in order, of which the last may be missing.
-/

namespace Vetting.Wire

/-- Reads every item. -/
def itemsOf {α : Type} (item : Json → Except Mismatch α) : List Json → Except Mismatch (List α)
  | [] => .ok []
  | j :: js => do
    let a ← item j
    let as ← itemsOf item js
    .ok (a :: as)

/-- Takes in the members one by one. -/
def membersOf {σ : Type} (member : String → Json → σ → Except Mismatch σ) :
    List (String × Json) → σ → Except Mismatch σ
  | [], slots => .ok slots
  | (key, j) :: rest, slots => do
    let slots ← member key j slots
    membersOf member rest slots

def statusOf : Json → Except Mismatch JobStatus
  | .str name =>
    match JobStatus.ofName? name with
    | some s => .ok s
    | none => .error (.unknownName name)
  | .obj [(name, j)] =>
    match JobStatus.ofName? name, j with
    | none, _ => .error (.unknownName name)
    | some s, .null => .ok s
    | some _, j => .error (.wrongType (.ofJson j) "unit")
  | .obj _ => .error (.wrongValue .object "map with a single key")
  | j => .error (.wrongType (.ofJson j) "string or map")

mutual

/-- The value of a shape that a JSON value denotes. -/
def Shape.ofJson : (s : Shape) → Json → Except Mismatch s.Val
  | .any, j => .ok j
  | .leaf l, j => l.ofJson j
  | .status, j => statusOf j
  | .option s, j =>
    match j with
    | .null => .ok none
    | j => do
      let v ← s.ofJson j
      .ok (some v)
  | .list s, j =>
    match j with
    | .arr items => itemsOf (fun j => s.ofJson j) items
    | j => .error (.wrongType (.ofJson j) "a sequence")
  | .record name fs, j =>
    match j with
    | .obj members => do
      let slots ← membersOf (fun key j slots => fs.ofMember key j slots) members fs.noSlots
      fs.settle slots
    | .arr items => fs.ofItems name items.length (fs.describe name) 0 items
    | j => .error (.wrongType (.ofJson j) ("struct " ++ name))

/-- Takes in one member of an object. -/
def Fields.ofMember : (fs : Fields) → String → Json → fs.Slots → Except Mismatch fs.Slots
  | .nil, _, _, slots => .ok slots
  | .cons own aliases s _ _ rest, key, j, (slot, slots) =>
    if key = own ∨ key ∈ aliases then
      if Option.isSome slot then .error (.duplicateField own)
      else do
        let v ← s.ofJson j
        .ok (some v, slots)
    else do
      let slots ← rest.ofMember key j slots
      .ok (slot, slots)

/-- Reads the fields from a list, of which `done` items have been used. -/
def Fields.ofItems : (fs : Fields) → (name : String) → (total : Nat) → (whole : String) →
    (done : Nat) → List Json → Except Mismatch fs.Vals
  | .nil, _, total, _, _, items =>
    if items.isEmpty then .ok () else .error (.wrongLength total "fewer elements in array")
  | .cons _ _ s missing _ rest, name, total, whole, done, items =>
    match items with
    | [] =>
      if missing = .filled then do
        let vs ← rest.ofItems name total whole (done + 1) []
        .ok (s.filler, vs)
      else .error (.wrongLength done whole)
    | j :: items => do
      let v ← s.ofJson j
      let vs ← rest.ofItems name total whole (done + 1) items
      .ok (v, vs)

end

end Vetting.Wire
