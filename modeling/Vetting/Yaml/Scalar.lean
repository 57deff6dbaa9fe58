import Vetting.Yaml.Cursor

/-!
The texts of scalars. A text may run over several lines; in plain and quoted scalars and in folded
blocks a single line end is read as a blank, and of several line ends the first one is dropped.
-/

namespace Vetting.Yaml

/-- What stands between two pieces of a text. -/
structure Gap where
  blanks : List Char
  /-- The first line end, unless it was escaped. -/
  first : List Char
  more : List Char
  broken : Bool

def Gap.none : Gap := ⟨[], [], [], false⟩

def Gap.escaped : Gap := ⟨[], [], [], true⟩

def Gap.text (g : Gap) : List Char :=
  if !g.broken then g.blanks
  else if g.first = ['\n'] then if g.more.isEmpty then [' '] else g.more
  else g.first ++ g.more

/-- Reads blanks and line ends. On a later line a tab left of `margin` is refused. -/
def gapFrom (margin : Nat) : Nat → Gap → Cursor → Except Fault (Gap × Cursor)
  | 0, g, c => .ok (g, c)
  | fuel + 1, g, c =>
    match c.peek with
    | none => .ok (g, c)
    | some x =>
      if isBlank x then
        if g.broken then
          if x = '\t' && c.column < margin then .error .tab else gapFrom margin fuel g (c.skip 1)
        else gapFrom margin fuel { g with blanks := g.blanks ++ [x] } (c.skip 1)
      else if isBreak x then
        let (b, c) := c.skipBreak
        if g.broken then gapFrom margin fuel { g with more := g.more ++ b } c
        else gapFrom margin fuel ⟨[], b, [], true⟩ c
      else .ok (g, c)

def gap (margin : Nat) (g : Gap) (c : Cursor) : Except Fault (Gap × Cursor) :=
  gapFrom margin (c.rest.length + 1) g c

/-- The characters that structure collections in brackets. -/
def isFlowSign (c : Char) : Bool :=
  c = ',' || c = '[' || c = ']' || c = '\x7b' || c = '\x7d'

/-- The characters of a plain text up to a blank, a line end or a sign that ends it. -/
def plainRun (inFlow : Bool) : List Char → Except Fault (List Char)
  | [] => .ok []
  | c :: rest =>
    if isBlank c || isBreak c then .ok []
    else if inFlow && c = ':' && (rest.head?.any fun d => isFlowSign d || d = '?') then
      .error .flowColon
    else if (c = ':' && atGap rest) || (inFlow && isFlowSign c) then .ok []
    else (plainRun inFlow rest).map (c :: ·)

/-- Reads a plain text; also tells whether a line end followed it. Lines of the text stand at
`margin` or right of it. -/
def plainFrom (inFlow : Bool) (margin : Nat) :
    Nat → List Char → Gap → Cursor → Except Fault (List Char × Bool × Cursor)
  | 0, text, g, c => .ok (text, g.broken, c)
  | fuel + 1, text, g, c => do
    if c.atDocumentMark || c.peek = some '#' then return (text, g.broken, c)
    let run ← plainRun inFlow c.rest
    if run.isEmpty then return (text, g.broken, c)
    let text := text ++ g.text ++ run
    let c := c.skip run.length
    if c.rest.isEmpty || !atGap c.rest then return (text, false, c)
    let (g, c) ← gap margin .none c
    if !inFlow && c.column < margin then return (text, g.broken, c)
    plainFrom inFlow margin fuel text g c

def plain (inFlow : Bool) (margin : Nat) (c : Cursor) : Except Fault (List Char × Bool × Cursor) :=
  plainFrom inFlow margin (c.rest.length + 1) [] .none c

def hexDigit? (c : Char) : Option Nat :=
  if '0' ≤ c ∧ c ≤ '9' then some (c.toNat - '0'.toNat)
  else if 'a' ≤ c ∧ c ≤ 'f' then some (c.toNat - 'a'.toNat + 10)
  else if 'A' ≤ c ∧ c ≤ 'F' then some (c.toNat - 'A'.toNat + 10)
  else none

/-- The character of a code in hexadecimal digits. -/
def codeChar? (digits : List Char) : Option Char := do
  let ds ← digits.mapM hexDigit?
  let n := ds.foldl (fun n d => n * 16 + d) 0
  if n.isValidChar then return Char.ofNat n else none

def shortEscapes : List (Char × Char) :=
  [('0', '\x00'), ('a', '\x07'), ('b', '\x08'), ('t', '\t'), ('\t', '\t'), ('n', '\n'),
    ('v', '\x0b'), ('f', '\x0c'), ('r', '\r'), ('e', '\x1b'), (' ', ' '), ('"', '"'), ('/', '/'),
    ('\\', '\\'), ('N', '\u0085'), ('_', '\u00a0'), ('L', '\u2028'), ('P', '\u2029')]

/-- Escapes by a code, and how many digits it has. -/
def codeEscapes : List (Char × Nat) := [('x', 2), ('u', 4), ('U', 8)]

/-- The character that an escape stands for, and how many characters it takes. -/
def escape? : List Char → Option (Char × Nat)
  | '\\' :: e :: rest =>
    match shortEscapes.lookup e, codeEscapes.lookup e with
    | some c, _ => some (c, 2)
    | none, some n =>
      if (rest.take n).length = n then (codeChar? (rest.take n)).map fun c => (c, n + 2) else none
    | none, none => none
  | _ => none

/-- Reads characters in single quotes up to a blank, a line end or the closing quote. -/
def singleRun : Nat → Cursor → List Char × Cursor
  | 0, c => ([], c)
  | fuel + 1, c =>
    match c.rest with
    | '\'' :: '\'' :: _ =>
      let (run, c) := singleRun fuel (c.skip 2)
      ('\'' :: run, c)
    | x :: _ =>
      if x = '\'' || isBlank x || isBreak x then ([], c)
      else
        let (run, c) := singleRun fuel (c.skip 1)
        (x :: run, c)
    | [] => ([], c)

/-- Reads characters in double quotes up to a blank, a line end or the closing quote; an escaped
line end begins a gap. -/
def doubleRun : Nat → Cursor → Except Fault (List Char × Gap × Cursor)
  | 0, c => .ok ([], .none, c)
  | fuel + 1, c =>
    match c.rest with
    | '\\' :: x :: _ =>
      if isBreak x then .ok ([], .escaped, (c.skip 1).skipBreak.2)
      else
        match escape? c.rest with
        | some (e, n) => (doubleRun fuel (c.skip n)).map fun (run, g, c) => (e :: run, g, c)
        | none => .error .escape
    | ['\\'] => .error .escape
    | x :: _ =>
      if x = '"' || isBlank x || isBreak x then .ok ([], .none, c)
      else (doubleRun fuel (c.skip 1)).map fun (run, g, c) => (x :: run, g, c)
    | [] => .ok ([], .none, c)

/-- Reads a quoted text after its opening quote. -/
def quotedFrom (quote : Char) : Nat → List Char → Cursor → Except Fault (List Char × Cursor)
  | 0, _, _ => .error .unclosed
  | fuel + 1, text, c => do
    if c.atDocumentMark then throw .documentMark
    if c.rest.isEmpty then throw .unclosed
    let (run, g, c) ← if quote = '"' then doubleRun (c.rest.length + 1) c
      else let (run, c) := singleRun (c.rest.length + 1) c; pure (run, Gap.none, c)
    let text := text ++ run
    if c.peek = some quote then return (text, c.skip 1)
    let (g, c) ← gap 0 g c
    quotedFrom quote fuel (text ++ g.text) c

def quoted (quote : Char) (c : Cursor) : Except Fault (List Char × Cursor) :=
  quotedFrom quote (c.rest.length + 1) [] (c.skip 1)

/-- What becomes of the line ends at the end of a block. -/
inductive Chomp where
  | strip
  | clip
  | keep
  deriving DecidableEq, Repr

def chomp? : Char → Option Chomp
  | '+' => some .keep
  | '-' => some .strip
  | _ => none

def indentDigit? (c : Char) : Option Nat :=
  if '0' ≤ c ∧ c ≤ '9' then some (c.toNat - '0'.toNat) else none

/-- The two signs after a block's own sign, in either order; an indentation of 0 is refused. -/
def blockSigns (c : Cursor) : Except Fault (Chomp × Option Nat × Cursor) :=
  let digit (c : Cursor) : Except Fault (Option Nat × Cursor) :=
    match c.peek.bind indentDigit? with
    | some 0 => .error .blockHeader
    | some n => .ok (some n, c.skip 1)
    | none => .ok (none, c)
  match c.peek.bind chomp? with
  | some ch => do
    let (n, c) ← digit (c.skip 1)
    return (ch, n, c)
  | none => do
    let (n, c) ← digit c
    match n, c.peek.bind chomp? with
    | some n, some ch => return (ch, some n, c.skip 1)
    | n, _ => return (.clip, n, c)

/-- Empty lines of a block. `indent` is the indentation, if it is known; `widest` the widest one
met so far. -/
def emptyLines (indent : Option Nat) :
    Nat → Nat → List Char → Cursor → Except Fault (Nat × List Char × Cursor)
  | 0, widest, breaks, c => .ok (widest, breaks, c)
  | fuel + 1, widest, breaks, c =>
    let spaces := (c.rest.takeWhile (· = ' ')).length
    let room := match indent with
      | none => spaces
      | some n => n - c.column
    let c := c.skip (min spaces room)
    let widest := max widest c.column
    let isLeft := indent.all fun n => c.column < n
    if isLeft && c.peek = some '\t' then .error .tab
    else if c.rest.isEmpty || !atLineEnd c.rest then .ok (widest, breaks, c)
    else
      let (b, c) := c.skipBreak
      emptyLines indent fuel widest (breaks ++ b) c

structure Block where
  text : List Char
  /-- The end of the last line. -/
  first : List Char
  /-- The empty lines after it. -/
  more : List Char
  /-- Whether the last line starts with a blank. -/
  isInset : Bool

def blockLines (folded : Bool) (indent : Nat) : Nat → Block → Cursor → Except Fault (Block × Cursor)
  | 0, b, c => .ok (b, c)
  | fuel + 1, b, c => do
    if c.rest.isEmpty || c.column ≠ indent then return (b, c)
    let isInset := c.peek.any isBlank
    let between :=
      if folded && b.first = ['\n'] && !b.isInset && !isInset then
        if b.more.isEmpty then [' '] else []
      else b.first
    let line := c.rest.takeWhile fun x => !isBreak x
    let (first, c) := (c.skip line.length).skipBreak
    let (_, more, c) ← emptyLines (some indent) (c.rest.length + 1) 0 [] c
    blockLines folded indent fuel ⟨b.text ++ between ++ b.more ++ line, first, more, isInset⟩ c

/-- Reads a block from its sign on; `parent` is the indentation of what it belongs to. -/
def block (folded : Bool) (parent : Int) (c : Cursor) : Except Fault (List Char × Cursor) := do
  let (chomp, given, c) ← blockSigns (c.skip 1)
  let c := c.skipWhile isBlank
  let c := if c.peek = some '#' then c.skipWhile fun _ => true else c
  if !atLineEnd c.rest then throw .blockHeader
  let c := c.skipBreak.2
  let indent := given.map fun n => if 0 ≤ parent then parent.toNat + n else n
  let (widest, more, c) ← emptyLines indent (c.rest.length + 1) 0 [] c
  let indent := indent.getD (max widest (max (parent + 1).toNat 1))
  let (b, c) ← blockLines folded indent (c.rest.length + 1) ⟨[], [], more, false⟩ c
  let tail := match chomp with
    | .strip => []
    | .clip => b.first
    | .keep => b.first ++ b.more
  return (b.text ++ tail, c)

end Vetting.Yaml
