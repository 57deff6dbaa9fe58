import Vetting.Text.Utf8
import Vetting.Yaml.Token

/-!
Documents as trees. A reference leads to the node that its anchor marks, which may hold it.
-/

namespace Vetting.Yaml

inductive Node where
  /-- A text with its style and its tag in full. -/
  | scalar (style : Style) (tag : Option String) (text : String)
  | list (items : List Node)
  | map (members : List (Node × Node))
  | reference (anchor : Nat)
  deriving Inhabited

/-- What is left of the tokens, and what the nodes read so far have told. -/
structure Reading where
  tokens : List Token
  handles : List (String × String)
  /-- The numbers of the names, the latest first. -/
  names : List (String × Nat)
  /-- The nodes with anchors, the latest first. -/
  marked : List (Nat × Node)

/-- A document: its root, and the nodes that references lead to. -/
structure Document where
  root : Node
  marked : List (Nat × Node)

/-- The node that stands where `n` stands. -/
def Document.follow (d : Document) (n : Node) : Node :=
  match n with
  | .reference k => (d.marked.lookup k).getD n
  | n => n

namespace Node

/-- What stands where a node is left out. -/
def absent (tag : Option String) : Node := .scalar .plain tag ""

/-- Whether the next token is one of these. -/
def isNext (r : Reading) (ts : List Token) : Bool := r.tokens.head?.any ts.contains

def drop (r : Reading) : Reading := { r with tokens := r.tokens.drop 1 }

/-- What stands before a node: an anchor and a tag, in either order. -/
structure Properties where
  anchor : Option String
  tag : Option Tag

def Properties.isNone (p : Properties) : Bool := p.anchor.isNone && p.tag.isNone

def properties (ts : List Token) : Properties × List Token :=
  match ts with
  | .anchor a :: .tag t :: ts => (⟨some a, some t⟩, ts)
  | .tag t :: .anchor a :: ts => (⟨some a, some t⟩, ts)
  | .anchor a :: ts => (⟨some a, none⟩, ts)
  | .tag t :: ts => (⟨none, some t⟩, ts)
  | ts => (⟨none, none⟩, ts)

def fullTag (r : Reading) (t : Option Tag) : Except Fault (Option String) :=
  match t with
  | none => .ok none
  | some t =>
    match t.full? r.handles with
    | some s => .ok (some s)
    | none => .error .tag

/-- Numbers an anchor by how many names there are. -/
def number (anchor : Option String) (r : Reading) : Option Nat × Reading :=
  match anchor with
  | none => (none, r)
  | some a =>
    let k := (r.names.map (·.1)).eraseDups.length
    (some k, { r with names := (a, k) :: r.names })

/-- A node that has been read, and its anchor's number. -/
def mark (k : Option Nat) (n : Node) (r : Reading) : Node × Reading :=
  match k with
  | some k => (n, { r with marked := (k, n) :: r.marked })
  | none => (n, r)

mutual

/-- Reads a node. In indented style an entry's list may stand at the column of its key. -/
def read : Nat → Bool → Bool → Reading → Except Fault (Node × Reading)
  | 0, _, _, _ => .error .expectedNode
  | fuel + 1, inBlock, flush, r =>
    match r.tokens with
    | .reference a :: _ =>
      match r.names.lookup a with
      | some k => .ok (.reference k, drop r)
      | none => .error .unknownAnchor
    | ts => do
      let (p, ts) := properties ts
      let tag ← fullTag r p.tag
      let (k, r) := number p.anchor { r with tokens := ts }
      let items (read : Except Fault (List Node × Reading)) : Except Fault (Node × Reading) :=
        read.map fun (items, r) => mark k (.list items) r
      let members (read : Except Fault (List (Node × Node) × Reading)) :
          Except Fault (Node × Reading) :=
        read.map fun (members, r) => mark k (.map members) r
      let other : Except Fault (Node × Reading) :=
        if p.isNone then .error .expectedNode else .ok (mark k (absent tag) r)
      match ts with
      | .scalar style text :: _ => return mark k (.scalar style tag text) (drop r)
      | .item :: _ => if flush then items (readFlushItems fuel r) else other
      | .flowListStart :: _ => items (readFlowItems fuel true (drop r))
      | .flowMapStart :: _ => members (readFlowMembers fuel true (drop r))
      | .listStart :: _ => if inBlock then items (readItems fuel (drop r)) else other
      | .mapStart :: _ => if inBlock then members (readMembers fuel (drop r)) else other
      | _ => other

/-- Reads a node unless one of these tokens comes next. -/
def readUnless : Nat → List Token → Bool → Bool → Reading → Except Fault (Node × Reading)
  | 0, _, _, _, _ => .error .expectedNode
  | fuel + 1, ends, inBlock, flush, r =>
    if r.tokens.isEmpty || isNext r ends then .ok (absent none, r) else read fuel inBlock flush r

def readItems : Nat → Reading → Except Fault (List Node × Reading)
  | 0, _ => .error .expectedEntry
  | fuel + 1, r =>
    match r.tokens with
    | .blockEnd :: _ => .ok ([], drop r)
    | .item :: _ => do
      let (n, r) ← readUnless fuel [.item, .blockEnd] true false (drop r)
      let (ns, r) ← readItems fuel r
      return (n :: ns, r)
    | _ => .error .expectedEntry

/-- Reads the items of a list that stands at the column of its key. -/
def readFlushItems : Nat → Reading → Except Fault (List Node × Reading)
  | 0, _ => .error .expectedEntry
  | fuel + 1, r =>
    match r.tokens with
    | .item :: _ => do
      let (n, r) ← readUnless fuel [.item, .key, .value, .blockEnd] true false (drop r)
      let (ns, r) ← readFlushItems fuel r
      return (n :: ns, r)
    | _ => .ok ([], r)

def readValue : Nat → Reading → Except Fault (Node × Reading)
  | 0, _ => .error .expectedNode
  | fuel + 1, r =>
    match r.tokens with
    | .value :: _ => readUnless fuel [.key, .value, .blockEnd] true true (drop r)
    | _ => .ok (absent none, r)

def readMembers : Nat → Reading → Except Fault (List (Node × Node) × Reading)
  | 0, _ => .error .expectedKey
  | fuel + 1, r =>
    match r.tokens with
    | .blockEnd :: _ => .ok ([], drop r)
    | .key :: _ => do
      let (k, r) ← readUnless fuel [.key, .value, .blockEnd] true true (drop r)
      let (v, r) ← readValue fuel r
      let (ms, r) ← readMembers fuel r
      return ((k, v) :: ms, r)
    | _ => .error .expectedKey

/-- Reads a comma unless the entry to come is the first one. -/
def readComma : Bool → Reading → Except Fault Reading
  | true, r => .ok r
  | false, r => if isNext r [.comma] then .ok (drop r) else .error .expectedEntry

/-- Reads the value of a member in brackets that end with one of these tokens. -/
def readFlowValue : Nat → List Token → Reading → Except Fault (Node × Reading)
  | 0, _, _ => .error .expectedNode
  | fuel + 1, ends, r =>
    match r.tokens with
    | .value :: _ => readUnless fuel (.comma :: ends) false false (drop r)
    | _ => .ok (absent none, r)

/-- Reads the items of a list in brackets. A key makes an item a map of one member. -/
def readFlowItems : Nat → Bool → Reading → Except Fault (List Node × Reading)
  | 0, _, _ => .error .expectedEntry
  | fuel + 1, first, r => do
    if isNext r [.flowListEnd] then return ([], drop r)
    let r ← readComma first r
    if isNext r [.flowListEnd] then return ([], drop r)
    if isNext r [.key] then
      let (k, r) ← readUnless fuel [.value, .comma, .flowListEnd] false false (drop r)
      let (v, r) ← readFlowValue fuel [.flowListEnd] r
      let (ns, r) ← readFlowItems fuel false r
      return (.map [(k, v)] :: ns, r)
    let (n, r) ← read fuel false false r
    let (ns, r) ← readFlowItems fuel false r
    return (n :: ns, r)

def readFlowMembers : Nat → Bool → Reading → Except Fault (List (Node × Node) × Reading)
  | 0, _, _ => .error .expectedEntry
  | fuel + 1, first, r => do
    if isNext r [.flowMapEnd] then return ([], drop r)
    let r ← readComma first r
    if isNext r [.flowMapEnd] then return ([], drop r)
    if isNext r [.key] then
      let (k, r) ← readUnless fuel [.value, .comma, .flowMapEnd] false false (drop r)
      let (v, r) ← readFlowValue fuel [.flowMapEnd] r
      let (ms, r) ← readFlowMembers fuel false r
      return ((k, v) :: ms, r)
    let (k, r) ← read fuel false false r
    let (ms, r) ← readFlowMembers fuel false r
    return ((k, absent none) :: ms, r)

end

/-- The handles that directives tell. The language is told once at most, and none twice. -/
def handlesOf : Bool → List (String × String) → List Directive →
    Except Fault (List (String × String))
  | _, handles, [] => .ok handles
  | told, handles, .version major minor :: ds =>
    if told || major ≠ 1 || (minor ≠ 1 && minor ≠ 2) then .error .directive
    else handlesOf true handles ds
  | told, handles, .handle h base :: ds =>
    if (handles.lookup h).isSome then .error .directive
    else handlesOf told ((h, base) :: handles) ds

def directives (ts : List Token) : List Directive :=
  match ts with
  | .directive d :: ts => d :: directives ts
  | _ => []

/-- The start of a document: its handles, and whether a start sign was passed. Where there are
directives there is a start sign. -/
def startOf (ts : List Token) : Except Fault (Bool × Reading) := do
  let ds := directives ts
  let handles ← handlesOf false [] ds
  let r (ts : List Token) : Reading := ⟨ts, handles ++ knownHandles, [], []⟩
  match ts.drop ds.length with
  | .documentStart :: ts => return (true, r ts)
  | ts => if ds.isEmpty then return (false, r ts) else throw .expectedDocument

/-- The document that tokens make; `none` if there are no tokens. There must not be two. -/
def ofTokens (ts : List Token) : Except Fault (Option Document) := do
  if ts.isEmpty then return none
  let (isMarked, r) ← startOf ts
  let fuel := 4 * ts.length + 8
  let (n, r) ← if isMarked then
      let ends (t : Token) : Bool := match t with
        | .directive _ => true
        | t => t = .documentStart || t = .documentEnd
      if r.tokens.head?.all ends then pure (absent none, r) else read fuel true false r
    else read fuel true false r
  if r.tokens.all (· = .documentEnd) then return some ⟨n, r.marked⟩ else throw .expectedDocument

def ofText (b : Text.Bytes) : Except Fault (Option Document) :=
  match Text.ofUtf8? b with
  | none => .error .encoding
  | some s => (tokens s).bind ofTokens

end Node

end Vetting.Yaml
