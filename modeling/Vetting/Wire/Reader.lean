import Vetting.Json.Reader
import Vetting.Wire.Mismatch

/-!
Reading the values of a shape straight from a JSON text. Members without a field are passed over
without being decoded. A mismatch is reported where the reader stands when it is noticed; a
mismatch that concerns a whole record is reported after an attempt to end the record.
-/

namespace Vetting.Wire

open Json (Cursor Position Reader.nextItem Reader.nextKey Reader.colon Reader.endList
  Reader.endObject Reader.itemsFrom Reader.valueIn)
open Text (Bytes)

/-- Why a text has no value of the shape: it is no JSON text, or its value does not fit. -/
inductive Cause where
  | text (c : Json.Cause)
  | value (m : Mismatch)

def Cause.message : Cause → String
  | .text c => c.message
  | .value m => m.message

structure Fault where
  cause : Cause
  place : Position

def Fault.message (f : Fault) : String := f.cause.message ++ f.place.message

def Fault.ofJson (f : Json.Fault) : Fault := ⟨.text f.cause, f.place⟩

def onText {α : Type} (r : Except Json.Fault α) : Except Fault α := r.mapError Fault.ofJson

/-- Why a record could not be read: a fault with its place, or a mismatch of the record noticed
at a cursor. -/
inductive Stop where
  | fault (f : Fault)
  | record (m : Mismatch) (c : Cursor)

def inRecord {α : Type} (r : Except Fault α) : Except Stop α := r.mapError .fault

/-- Where the attempt to end a record stops. -/
def afterEndAttempt (isList : Bool) (c : Cursor) : Cursor :=
  let c := c.skipSpace
  match c.peek, isList with
  | some 0x7D, false => c.skip
  | some 0x5D, true => c.skip
  | some 0x2C, true => c.skip.skipSpace
  | _, _ => c

def Stop.toFault (isList : Bool) : Stop → Fault
  | .fault f => f
  | .record m c => ⟨.value m, (afterEndAttempt isList c).place⟩

/-- Reads a value without parts; at a list or an object it stays and answers an empty one. -/
def scalar (c : Cursor) : Except Fault (Json × Cursor) :=
  let c := c.skipSpace
  match c.peek with
  | some 0x5B => .ok (.arr [], c)
  | some 0x7B => .ok (.obj [], c)
  | _ => onText (Reader.valueIn 0 c)

/-- Refuses the value at the cursor, of which another kind was expected. -/
def refuse {α : Type} (expected : String) (c : Cursor) : Except Fault α := do
  let (j, c) ← scalar c
  .error ⟨.value (.wrongType (.ofJson j) expected), c.place⟩

def Leaf.read (l : Leaf) (c : Cursor) : Except Fault (l.Val × Cursor) := do
  let (j, c) ← scalar c
  match l.ofJson j with
  | .ok v => .ok (v, c)
  | .error m => .error ⟨.value m, c.place⟩

/-- Reads the name of a status after its opening quote. -/
def statusName (c : Cursor) : Except Fault (JobStatus × Cursor) := do
  let (name, c) ← onText (Json.Quoted.read c)
  match JobStatus.ofName? name with
  | some s => .ok (s, c)
  | none => .error ⟨.value (.unknownName name), c.place⟩

/-- Reads a status: its name, or an object whose only key is its name, with null. -/
def readStatus (room : Nat) (c : Cursor) : Except Fault (JobStatus × Cursor) :=
  let c := c.skipSpace
  match c.peek with
  | none => .error (.ofJson (c.ahead .endOfValue))
  | some 0x22 => statusName c.skip
  | some 0x7B =>
    match room with
    | 0 => .error (.ofJson (c.ahead .tooDeep))
    | _ + 1 => do
      let c := c.skip.skipSpace
      let (s, c) ← match c.peek with
        | some 0x22 => statusName c.skip
        | none => .error (.ofJson (c.ahead .endOfValue))
        | some _ => refuse "variant identifier" c
      let c ← onText (Reader.colon c)
      let (j, c) ← scalar c
      match j with
      | .null =>
        let c := c.skipSpace
        match c.peek with
        | some 0x7D => .ok (s, c.skip)
        | some _ => .error (.ofJson (c.here .expectedValue))
        | none => .error (.ofJson (c.here .endOfObject))
      | j => .error ⟨.value (.wrongType (.ofJson j) "unit"), c.place⟩
  | some _ => .error (.ofJson (c.ahead .expectedValue))

/-- Takes in the members of an object up to its closing brace; the bytes left bound the steps. -/
def membersInto {σ : Type} (member : String → σ → Cursor → Except Stop (σ × Cursor)) :
    Bytes → Bool → σ → Cursor → Except Stop (σ × Cursor)
  | [], _, _, c => .error (.fault (.ofJson (c.here .endOfObject)))
  | _ :: bound, first, slots, c => do
    match ← inRecord (onText (Reader.nextKey first c)) with
    | none => .ok (slots, c)
    | some c =>
      let (key, c) ← inRecord (onText (Json.Quoted.read c))
      let (slots, c) ← member key slots c
      membersInto member bound false slots c

mutual

/-- Reads a value of the shape; `room` more lists and objects may be opened. -/
def Shape.read : (s : Shape) → (room : Nat) → Cursor → Except Fault (s.Val × Cursor)
  | .any, room, c => onText (Reader.valueIn room c)
  | .leaf l, _, c => l.read c
  | .status, room, c => readStatus room c
  | .option s, room, c =>
    let c := c.skipSpace
    match c.peek with
    | some 0x6E => do
      let c ← onText (c.skip.word [0x75, 0x6C, 0x6C])
      .ok (none, c)
    | _ => do
      let (v, c) ← s.read room c
      .ok (some v, c)
  | .list s, room, c =>
    let c := c.skipSpace
    match c.peek with
    | some 0x5B =>
      match room with
      | 0 => .error (.ofJson (c.ahead .tooDeep))
      | room + 1 => do
        let (vs, c) ← Reader.itemsFrom Fault.ofJson (fun c => s.read room c) c.rest true
          c.skip
        let c ← onText (Reader.endList c)
        .ok (vs, c)
    | _ => refuse "a sequence" c
  | .record name fs, room, c =>
    let c := c.skipSpace
    match c.peek with
    | some 0x5B =>
      match room with
      | 0 => .error (.ofJson (c.ahead .tooDeep))
      | room + 1 =>
        match fs.readItems room (fs.describe name) 0 true c.skip with
        | .error stop => .error (stop.toFault true)
        | .ok (vs, c) => do
          let c ← onText (Reader.endList c)
          .ok (vs, c)
    | some 0x7B =>
      match room with
      | 0 => .error (.ofJson (c.ahead .tooDeep))
      | room + 1 =>
        match membersInto (fun key slots c => fs.readMember room key slots c)
            c.rest true fs.noSlots c.skip with
        | .error stop => .error (stop.toFault false)
        | .ok (slots, c) =>
          match fs.settle slots with
          | .error m => .error ((Stop.record m c).toFault false)
          | .ok vs => do
            let c ← onText (Reader.endObject c)
            .ok (vs, c)
    | _ => refuse ("struct " ++ name) c

/-- Takes in the member whose key has been read. -/
def Fields.readMember : (fs : Fields) → (room : Nat) → (key : String) → fs.Slots → Cursor →
    Except Stop (fs.Slots × Cursor)
  | .nil, _, _, slots, c => do
    let c ← inRecord (onText (Reader.colon c))
    let c ← inRecord (onText (Json.Reader.pass c))
    .ok (slots, c)
  | .cons own aliases s _ _ rest, room, key, (slot, slots), c =>
    if key = own ∨ key ∈ aliases then
      if Option.isSome slot then .error (.record (.duplicateField own) c)
      else do
        let c ← inRecord (onText (Reader.colon c))
        let (v, c) ← inRecord (s.read room c)
        .ok ((some v, slots), c)
    else do
      let (slots, c) ← rest.readMember room key slots c
      .ok ((slot, slots), c)

/-- Reads the fields from a list, of which `done` items have been used. -/
def Fields.readItems : (fs : Fields) → (room : Nat) → (whole : String) → (done : Nat) →
    (first : Bool) → Cursor → Except Stop (fs.Vals × Cursor)
  | .nil, _, _, _, _, c => .ok ((), c)
  | .cons _ _ s missing _ rest, room, whole, done, first, c => do
    match ← inRecord (onText (Reader.nextItem first c)) with
    | none =>
      if missing = .filled then do
        let (vs, c) ← rest.readItems room whole (done + 1) first c
        .ok ((s.filler, vs), c)
      else .error (.record (.wrongLength done whole) c)
    | some c => do
      let (v, c) ← inRecord (s.read room c)
      let (vs, c) ← rest.readItems room whole (done + 1) false c
      .ok ((v, vs), c)

end

def Shape.ofText (s : Shape) (b : Bytes) : Except Fault s.Val := do
  let (v, c) ← s.read Json.Reader.nestingLimit (Cursor.start b)
  onText (Json.Reader.ending c)
  return v

end Vetting.Wire
