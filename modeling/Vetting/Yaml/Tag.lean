import Vetting.Text.Digits
import Vetting.Text.Utf8
import Vetting.Yaml.Scalar

/-!
Tags tell the types of nodes: in full between angle brackets, or shortened by a handle whose long
form is told by a directive or known from the start. A directive is a line of its own.
-/

namespace Vetting.Yaml

open Text (Bytes utf8 ofUtf8?)

def isWord (c : Char) : Bool := c.isAlphanum || c = '_' || c = '-'

/-- A tag as it is written. In full it has no handle. -/
structure Tag where
  handle : String
  suffix : String
  deriving DecidableEq, Repr

/-- The handle at the front of a text, as far as it goes, and what follows. -/
def takeHandle (cs : List Char) : List Char × List Char :=
  match cs with
  | '!' :: rest =>
    let word := rest.takeWhile isWord
    match rest.drop word.length with
    | '!' :: rest => ('!' :: word ++ ['!'], rest)
    | rest => ('!' :: word, rest)
  | cs => ([], cs)

/-- Whether what was taken for a handle ends as one, with a second mark. -/
def isHandle (h : List Char) : Bool := 1 < h.length && h.getLast? = some '!'

/-- The characters of addresses. Three of them structure collections as well, so they stand for
themselves only where the address has an end of its own. -/
def isAddressChar (bounded : Bool) (c : Char) : Bool :=
  isWord c || ";/?:@&=+$.%!~*'()".toList.contains c || (bounded && (c = ',' || c = '[' || c = ']'))

/-- The bytes of an address, with escapes resolved. -/
def addressBytes : List Char → Option Bytes
  | [] => some []
  | '%' :: a :: b :: rest => do
    let high ← hexDigit? a
    let low ← hexDigit? b
    let bytes ← addressBytes rest
    return UInt8.ofNat (high * 16 + low) :: bytes
  | c :: rest => if c = '%' then none else (addressBytes rest).map (utf8 c.toString ++ ·)

/-- The address at the front of a text, and what follows. -/
def takeAddress (bounded : Bool) (cs : List Char) : Option (List Char × List Char) := do
  let run := cs.takeWhile (isAddressChar bounded)
  let text ← (← addressBytes run) |> ofUtf8?
  return (text.toList, cs.drop run.length)

/-- The tag at the front of a text, and what follows. A mark alone is a tag in full. -/
def takeTag (cs : List Char) : Option (Tag × List Char) :=
  match cs with
  | '!' :: '<' :: rest =>
    match takeAddress true rest with
    | some (address, '>' :: rest) =>
      if address.isEmpty then none else some (⟨"", String.ofList address⟩, rest)
    | _ => none
  | cs =>
    let (handle, rest) := takeHandle cs
    match takeAddress false rest with
    | none => none
    | some (address, rest) =>
      if isHandle handle then
        if address.isEmpty then none else some (⟨String.ofList handle, String.ofList address⟩, rest)
      else
        let suffix := handle.drop 1 ++ address
        some (if suffix.isEmpty then ⟨"", "!"⟩ else ⟨"!", String.ofList suffix⟩, rest)

/-- Handles that are known without a directive. -/
def knownHandles : List (String × String) := [("!", "!"), ("!!", "tag:yaml.org,2002:")]

def Tag.full? (handles : List (String × String)) (t : Tag) : Option String :=
  if t.handle = "" then some t.suffix else (handles.lookup t.handle).map (· ++ t.suffix)

inductive Directive where
  | version (major minor : Nat)
  | handle (handle base : String)
  deriving DecidableEq, Repr

def takeNumber (cs : List Char) : Option (Nat × List Char) :=
  let digits := cs.takeWhile Text.isDigit
  if digits.isEmpty || 9 < digits.length then none
  else some (Text.ofDigits digits, cs.drop digits.length)

/-- Whether only blanks and a comment follow. -/
def isOver (cs : List Char) : Bool :=
  match cs.dropWhile isBlank with
  | [] => true
  | c :: _ => c = '#'

def versionOf (cs : List Char) : Option Directive := do
  let (major, rest) ← takeNumber cs
  match rest with
  | '.' :: rest =>
    let (minor, rest) ← takeNumber rest
    if isOver rest then some (.version major minor) else none
  | _ => none

def handleOf (cs : List Char) : Option Directive := do
  let (handle, rest) := takeHandle cs
  if !(handle = ['!'] || isHandle handle) || !rest.head?.any isBlank then none
  let (base, rest) ← takeAddress true (rest.dropWhile isBlank)
  if base.isEmpty || !atGap rest || !isOver rest then none
  return .handle (String.ofList handle) (String.ofList base)

/-- The directive that a line after a percent sign holds. -/
def Directive.ofLine? (line : List Char) : Option Directive :=
  let name := line.takeWhile isWord
  let rest := line.drop name.length
  if !atGap rest then none
  else match String.ofList name with
    | "YAML" => versionOf (rest.dropWhile isBlank)
    | "TAG" => handleOf (rest.dropWhile isBlank)
    | _ => none

end Vetting.Yaml
