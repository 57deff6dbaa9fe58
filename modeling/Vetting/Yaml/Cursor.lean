/-!
A place in a document: the characters still to be read, and where they stand. Lines end in one of
five ways, of which three are read as a line feed.
-/

namespace Vetting.Yaml

/-- What can be wrong with a document. -/
inductive Fault where
  | encoding
  | control
  | directive
  | badStart
  | unfinishedKey
  | keyPlace
  | valuePlace
  | entryPlace
  | tab
  | unclosed
  | documentMark
  | escape
  | blockHeader
  | anchor
  | tag
  | flowColon
  | expectedNode
  | expectedEntry
  | expectedKey
  | expectedDocument
  | unknownAnchor
  deriving DecidableEq, Repr

structure Cursor where
  rest : List Char
  line : Nat
  column : Nat
  /-- How many characters have been read. -/
  index : Nat

def isBreak (c : Char) : Bool :=
  c = '\n' || c = '\r' || c = '\u0085' || c = '\u2028' || c = '\u2029'

def isBlank (c : Char) : Bool := c = ' ' || c = '\t'

/-- Whether a text is at its end, or a blank or line end comes next. -/
def atGap : List Char → Bool
  | [] => true
  | c :: _ => isBlank c || isBreak c

/-- Whether a text is at its end or a line end comes next. -/
def atLineEnd : List Char → Bool
  | [] => true
  | c :: _ => isBreak c

namespace Cursor

def start (cs : List Char) : Cursor := ⟨cs, 0, 0, 0⟩

def peek (c : Cursor) : Option Char := c.rest.head?

/-- Passes over characters that end no line. -/
def skip (c : Cursor) (n : Nat) : Cursor := ⟨c.rest.drop n, c.line, c.column + n, c.index + n⟩

/-- Passes over a line end, and tells what it is read as. -/
def skipBreak (c : Cursor) : List Char × Cursor :=
  match c.rest with
  | '\r' :: '\n' :: rest => (['\n'], ⟨rest, c.line + 1, 0, c.index + 2⟩)
  | x :: rest =>
    if isBreak x then
      ([if x = '\u2028' || x = '\u2029' then x else '\n'], ⟨rest, c.line + 1, 0, c.index + 1⟩)
    else ([], c)
  | [] => ([], c)

/-- Passes over the characters that satisfy `p`, none of which ends a line. -/
def skipWhile (c : Cursor) (p : Char → Bool) : Cursor :=
  c.skip (c.rest.takeWhile fun x => p x && !isBreak x).length

/-- Whether a line starts here with three times `mark`, the sign between documents. -/
def atMark (c : Cursor) (mark : Char) : Bool :=
  match c.rest with
  | a :: b :: d :: rest => c.column = 0 && a = mark && b = mark && d = mark && atGap rest
  | _ => false

def atDocumentMark (c : Cursor) : Bool := c.atMark '-' || c.atMark '.'

end Cursor

end Vetting.Yaml
