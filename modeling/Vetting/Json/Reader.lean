import Vetting.Json.Numeral
import Vetting.Json.Quoted

/-!
Reading JSON texts. `value` reads a value and `pass` passes over one. The two differ on purpose in
what they refuse: passing over a value decodes no text, sizes no number and has no limit on
nesting. Lists and objects share their punctuation through `nextItem` and `nextKey`.
-/

namespace Vetting.Json.Reader

open Text (Bytes)

/-- How many lists and objects may be open at once. -/
def nestingLimit : Nat := 127

/-- In a list: whether another item follows, with the cursor at it. -/
def nextItem (first : Bool) (c : Cursor) : Except Fault (Option Cursor) :=
  let c := c.skipSpace
  match c.peek with
  | none => .error (c.ahead .endOfList)
  | some 0x5D => .ok none
  | some b =>
    if first then .ok (some c)
    else if b = 0x2C then
      let c := c.skip.skipSpace
      match c.peek with
      | none => .error (c.ahead .endOfValue)
      | some 0x5D => .error (c.ahead .trailingComma)
      | some _ => .ok (some c)
    else .error (c.ahead .expectedListEnd)

/-- In an object: whether another key follows, with the cursor after its opening quote. -/
def nextKey (first : Bool) (c : Cursor) : Except Fault (Option Cursor) :=
  let c := c.skipSpace
  match c.peek with
  | none => .error (c.ahead .endOfObject)
  | some 0x7D => .ok none
  | some b =>
    if first then
      if b = 0x22 then .ok (some c.skip) else .error (c.ahead .keyNotString)
    else if b = 0x2C then
      let c := c.skip.skipSpace
      match c.peek with
      | none => .error (c.ahead .endOfValue)
      | some 0x22 => .ok (some c.skip)
      | some 0x7D => .error (c.ahead .trailingComma)
      | some _ => .error (c.ahead .keyNotString)
    else .error (c.ahead .expectedObjectEnd)

/-- The colon after a key. -/
def colon (c : Cursor) : Except Fault Cursor :=
  let c := c.skipSpace
  match c.peek with
  | none => .error (c.ahead .endOfObject)
  | some 0x3A => .ok c.skip
  | some _ => .error (c.ahead .expectedColon)

def endList (c : Cursor) : Except Fault Cursor :=
  let c := c.skipSpace
  match c.peek with
  | none => .error (c.ahead .endOfList)
  | some 0x5D => .ok c.skip
  | some 0x2C =>
    let c := c.skip.skipSpace
    .error (c.ahead (if c.peek = some 0x5D then .trailingComma else .trailingCharacters))
  | some _ => .error (c.ahead .trailingCharacters)

def endObject (c : Cursor) : Except Fault Cursor :=
  let c := c.skipSpace
  match c.peek with
  | none => .error (c.ahead .endOfObject)
  | some 0x7D => .ok c.skip
  | some 0x2C => .error (c.ahead .trailingComma)
  | some _ => .error (c.ahead .trailingCharacters)

/-- Reads the items of a list up to its closing bracket with `item`. Each step takes a byte, so the
bytes left bound the steps; so they do below. -/
def itemsFrom {ε α : Type} (lift : Fault → ε) (item : Cursor → Except ε (α × Cursor)) :
    Bytes → Bool → Cursor → Except ε (List α × Cursor)
  | [], _, c => .error (lift (c.here .endOfList))
  | _ :: bound, first, c =>
    match nextItem first c with
    | .error f => .error (lift f)
    | .ok none => .ok ([], c)
    | .ok (some c) => do
      let (a, c) ← item c
      let (as, c) ← itemsFrom lift item bound false c
      .ok (a :: as, c)

/-- Reads the members of an object up to its closing brace, each value with `item`. -/
def membersFrom (item : Cursor → Except Fault (Json × Cursor)) :
    Bytes → Bool → Cursor → Except Fault (List (String × Json) × Cursor)
  | [], _, c => .error (c.here .endOfObject)
  | _ :: bound, first, c => do
    match ← nextKey first c with
    | none => .ok ([], c)
    | some c =>
      let (key, c) ← Quoted.read c
      let c ← colon c
      let (v, c) ← item c
      let (ms, c) ← membersFrom item bound false c
      .ok ((key, v) :: ms, c)

/-- Reads a value; `room` more lists and objects may be opened. -/
def valueIn (room : Nat) (c : Cursor) : Except Fault (Json × Cursor) :=
  let c := c.skipSpace
  match c.peek with
  | none => .error (c.ahead .endOfValue)
  | some 0x6E => do return (.null, ← c.skip.word [0x75, 0x6C, 0x6C])
  | some 0x74 => do return (.bool true, ← c.skip.word [0x72, 0x75, 0x65])
  | some 0x66 => do return (.bool false, ← c.skip.word [0x61, 0x6C, 0x73, 0x65])
  | some 0x22 => do
    let (s, c) ← Quoted.read c.skip
    return (.str s, c)
  | some 0x5B =>
    match room with
    | 0 => .error (c.ahead .tooDeep)
    | room + 1 => do
      let (items, c) ← itemsFrom id (valueIn room) c.rest true c.skip
      return (.arr items, ← endList c)
  | some 0x7B =>
    match room with
    | 0 => .error (c.ahead .tooDeep)
    | room + 1 => do
      let (members, c) ← membersFrom (valueIn room) c.rest true c.skip
      return (Json.object members, ← endObject c)
  | some 0x2D => do
    let (n, c) ← Numeral.read true c.skip
    return (.num n, c)
  | some b =>
    if Cursor.isDigit b then do
      let (n, c) ← Numeral.read false c
      return (.num n, c)
    else .error (c.ahead .expectedValue)

/-- The brackets that are open while a value is passed over, the innermost first. -/
inductive Bracket where
  | list
  | object

/-- After a complete item: closes brackets and passes over one comma. Answers the brackets still
open when another item follows, or `none` at the end of the value. `comma` tells whether a comma
may come. -/
def afterItem : Bool → List Bracket → Cursor → Except Fault (Option (List Bracket) × Cursor)
  | _, [], c => .ok (none, c)
  | comma, b :: outer, c =>
    let c := c.skipSpace
    match c.peek, b with
    | none, .list => .error (c.ahead .endOfList)
    | none, .object => .error (c.ahead .endOfObject)
    | some 0x5D, .list => afterItem true outer c.skip
    | some 0x7D, .object => afterItem true outer c.skip
    | some x, _ =>
      if comma then
        if x = 0x2C then .ok (some (b :: outer), c.skip)
        else
          .error (c.ahead (match b with
            | .list => .expectedListEnd
            | .object => .expectedObjectEnd))
      else .ok (some (b :: outer), c)

/-- Before an item of an object: its key and the colon. -/
def passKey (brackets : List Bracket) (c : Cursor) : Except Fault Cursor :=
  match brackets with
  | .object :: _ => do
    let c := c.skipSpace
    match c.peek with
    | none => .error (c.ahead .endOfObject)
    | some 0x22 =>
      let c ← Quoted.pass c.skip
      let c := c.skipSpace
      match c.peek with
      | none => .error (c.ahead .endOfObject)
      | some 0x3A => .ok c.skip
      | some _ => .error (c.ahead .expectedColon)
    | some _ => .error (c.ahead .keyNotString)
  | _ => .ok c

def passFrom : Bytes → List Bracket → Cursor → Except Fault Cursor
  | [], _, c => .error (c.here .endOfValue)
  | _ :: bound, brackets, c => do
    let c := c.skipSpace
    let (opened, c) ← match c.peek with
      | none => .error (c.ahead .endOfValue)
      | some 0x6E => do pure (none, ← c.skip.word [0x75, 0x6C, 0x6C])
      | some 0x74 => do pure (none, ← c.skip.word [0x72, 0x75, 0x65])
      | some 0x66 => do pure (none, ← c.skip.word [0x61, 0x6C, 0x73, 0x65])
      | some 0x22 => do pure (none, ← Quoted.pass c.skip)
      | some 0x5B => .ok (some Bracket.list, c.skip)
      | some 0x7B => .ok (some Bracket.object, c.skip)
      | some 0x2D => do pure (none, ← Numeral.pass c.skip)
      | some b =>
        if Cursor.isDigit b then do pure (none, ← Numeral.pass c)
        else .error (c.ahead .expectedValue)
    let brackets' := match opened with
      | some b => b :: brackets
      | none => brackets
    let (more, c) ← afterItem opened.isNone brackets' c
    match more with
    | none => .ok c
    | some brackets =>
      let c ← passKey brackets c
      passFrom bound brackets c

def pass (c : Cursor) : Except Fault Cursor := passFrom c.rest [] c

/-- Nothing but blanks may follow a whole text's value. -/
def ending (c : Cursor) : Except Fault Unit :=
  let c := c.skipSpace
  match c.peek with
  | none => .ok ()
  | some _ => .error (c.ahead .trailingCharacters)

def value (b : Bytes) : Except Fault Json := do
  let (j, c) ← valueIn nestingLimit (Cursor.start b)
  ending c
  return j

end Vetting.Json.Reader
