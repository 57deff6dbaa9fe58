import Vetting.Text.Printable
import Vetting.Text.Utf8

/-!
Forms in parts. A delimiter, two dashes and a boundary, stands before each part and after the last
one, where two more dashes follow. A part has header lines, an empty line, and data that ends where
a line break and the next delimiter begin. Parts are read only as far as they are needed.
-/

namespace Vetting.Http.Multipart

open Text (Bytes utf8 ofUtf8?)

/-- What is wrong with the header lines of a part. -/
inductive HeaderFault where
  | name
  | value
  | lineBreak
  | tooMany
  deriving DecidableEq, Repr

def HeaderFault.message : HeaderFault → String
  | .name => "invalid header name"
  | .value => "invalid header value"
  | .lineBreak => "invalid new line"
  | .tooMany => "too many headers"

inductive Fault where
  /-- The body is longer than is accepted. -/
  | tooLarge
  /-- There is no delimiter where one should be, or the body ends inside a part's head. -/
  | incomplete
  /-- The data of a part has no end. -/
  | incompleteData (name : Option String)
  | headers (f : HeaderFault)
  deriving DecidableEq, Repr

def Fault.message : Fault → String
  | .tooLarge => "Request payload is too large"
  | .incomplete => "incomplete multipart stream"
  | .incompleteData name =>
    "field " ++ Text.quoted (name.getD "<unknown>") ++ " received with incomplete data"
  | .headers f => "failed to read headers: " ++ f.message

/-- How many header lines a part may have. -/
def maxHeaders : Nat := 32

def lineEnd : Bytes := [0x0D, 0x0A]

def dashes : Bytes := [0x2D, 0x2D]

def delimiter (boundary : String) : Bytes := dashes ++ utf8 boundary

def isBlank (b : UInt8) : Bool := b = 0x20 || b = 0x09

/-- White space of ASCII. -/
def isSpace (b : UInt8) : Bool := isBlank b || b = 0x0A || b = 0x0C || b = 0x0D

/-- What comes before the first occurrence of a pattern, and the rest, which starts with it. -/
def findFrom (pattern : Bytes) (before : Bytes) : Bytes → Option (Bytes × Bytes)
  | [] => if pattern.isEmpty then some (before.reverse, []) else none
  | b :: rest =>
    if pattern.isPrefixOf (b :: rest) then some (before.reverse, b :: rest)
    else findFrom pattern (b :: before) rest

def find (pattern b : Bytes) : Option (Bytes × Bytes) := findFrom pattern [] b

def isNameByte (b : UInt8) : Bool :=
  let c := Char.ofNat b.toNat
  b < 0x80 && (c.isAlphanum || "!#$%&'*+-.^_\x60|~".toList.contains c)

def isValueByte (b : UInt8) : Bool := b = 0x09 || (0x20 ≤ b && b ≠ 0x7F)

/-- The header lines up to the first empty line; `room` bounds their number. -/
def headerLines : Nat → Bytes → Except HeaderFault (List (Bytes × Bytes))
  | room, b =>
    match b with
    | 0x0A :: _ => .ok []
    | 0x0D :: 0x0A :: _ => .ok []
    | 0x0D :: _ => .error .lineBreak
    | _ =>
      let name := b.takeWhile isNameByte
      match name, b.dropWhile isNameByte with
      | [], _ => .error .name
      | _, 0x3A :: rest =>
        let value := rest.takeWhile isValueByte
        let trimmed :=
          (((value.dropWhile isBlank).reverse).dropWhile isBlank).reverse
        let next (after : Bytes) : Except HeaderFault (List (Bytes × Bytes)) :=
          match room with
          | 0 => .error .tooMany
          | room + 1 =>
            (headerLines room after).map ((name.map Text.asciiLower, trimmed) :: ·)
        match rest.dropWhile isValueByte with
        | 0x0D :: 0x0A :: after => next after
        | 0x0A :: after => next after
        | _ => .error .value
      | _, _ => .error .name

/-- The characters up to the quote that ends a quoted value. A quote after a backslash does not end
it, except at the very front. -/
def quotedValue? : Bool → Bytes → Option Bytes
  | _, [] => none
  | escaped, b :: rest =>
    if b = 0x22 && !escaped then some []
    else (quotedValue? (b = 0x5C) rest).map (b :: ·)

/-- Leaves out the backslashes before quotes. -/
def unescape : Bytes → Bytes
  | 0x5C :: 0x22 :: rest => 0x22 :: unescape rest
  | b :: rest => b :: unescape rest
  | [] => []

def skipSpace (b : Bytes) : Bytes := b.dropWhile isSpace

/-- The value that follows the name of an attribute. -/
def attributeValue? (b : Bytes) : Option String :=
  match skipSpace b with
  | 0x3D :: rest =>
    match skipSpace rest with
    | 0x22 :: quoted => (quotedValue? false quoted).bind fun v => ofUtf8? (unescape v)
    | plain => ofUtf8? (plain.takeWhile fun b => b ≠ 0x3B && b ≠ 0x20)
  | _ => none

/-- An attribute of a disposition: its name stands at the front or after white space or a
semicolon. `fuel` is at least the length of the disposition. -/
def attributeFrom (name : Bytes) : Nat → Bytes → Option String
  | 0, _ => none
  | fuel + 1, b =>
    (find name b).bind fun (before, rest) =>
      let after := rest.drop name.length
      match before.getLast? with
      | some l =>
        if isSpace l || l = 0x3B then attributeValue? after else attributeFrom name fuel after
      | none => attributeValue? after

def attribute? (name : String) (disposition : Bytes) : Option String :=
  attributeFrom (utf8 name) (disposition.length + 1) disposition

/-- What the head of a part tells. -/
structure Head where
  name : Option String
  fileName : Option String
  deriving DecidableEq, Repr

/-- The head that header lines tell, of two dispositions the last one. -/
def headOf (lines : List (Bytes × Bytes)) : Head :=
  let disposition := lines.reverse.lookup (utf8 "content-disposition")
  ⟨disposition.bind (attribute? "name"), disposition.bind (attribute? "filename")⟩

structure Part where
  head : Head
  data : Bytes
  deriving DecidableEq, Repr

/-- The bytes after the delimiter and the end of its line; `none` after the last part. -/
def afterDelimiter (delim b : Bytes) : Except Fault (Option Bytes) :=
  if !delim.isPrefixOf b then .error .incomplete
  else
    match b.drop delim.length with
    | 0x2D :: 0x2D :: _ => .ok none
    | x :: y :: rest =>
      match (x :: y :: rest).dropWhile isBlank with
      | 0x0D :: 0x0A :: after => .ok (some after)
      | _ => .error .incomplete
    | _ => .error .incomplete

/-- The head of a part and what follows it. -/
def readHead (b : Bytes) : Except Fault (Head × Bytes) :=
  match find (lineEnd ++ lineEnd) b with
  | none => .error .incomplete
  | some (before, rest) =>
    match headerLines maxHeaders (before ++ lineEnd ++ lineEnd) with
    | .error f => .error (.headers f)
    | .ok lines => .ok (headOf lines, rest.drop 4)

/-- The data of a part and what follows it, from the next delimiter on. -/
def readData (delim : Bytes) (head : Head) (b : Bytes) : Except Fault (Bytes × Bytes) :=
  match find (lineEnd ++ delim) b with
  | none => .error (.incompleteData head.name)
  | some (data, rest) => .ok (data, rest.drop lineEnd.length)

/-- The first part of a name, from a delimiter on. Each part takes at least one byte, so `fuel`
need not be more than the bytes. -/
def namedFrom (delim : Bytes) (name : String) : Nat → Bytes → Except Fault (Option Part)
  | 0, _ => .error .incomplete
  | fuel + 1, b => do
    match ← afterDelimiter delim b with
    | none => return none
    | some b =>
      let (head, b) ← readHead b
      let (data, b) ← readData delim head b
      if head.name = some name then return some ⟨head, data⟩
      else namedFrom delim name fuel b

/-- The first part of a name; what precedes the first delimiter is not looked at. -/
def named (boundary name : String) (limit : Nat) (body : Bytes) : Except Fault (Option Part) :=
  if body.length > limit then .error .tooLarge
  else
    match find (delimiter boundary) body with
    | none => .error .incomplete
    | some (_, b) => namedFrom (delimiter boundary) name (b.length + 1) b

end Vetting.Http.Multipart
