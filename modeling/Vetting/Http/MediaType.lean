import Vetting.Text.Digits

/-!
Media types: a type and a subtype, and parameters after semicolons. Names are in small letters. The
value of a parameter may stand in quotes; blanks may come before a parameter and after a quoted
value, and nowhere else.
-/

namespace Vetting.Http

structure MediaType where
  main : String
  /-- The subtype without what follows its last plus sign. -/
  sub : String
  /-- In the order in which they were written. -/
  params : List (String × String)
  deriving DecidableEq, Repr

namespace MediaType

/-- The characters of names and of values without quotes. -/
def isToken (c : Char) : Bool := c.isAlphanum || "!#$%&'*+-.^_\x60|~".toList.contains c

def isQuotable (c : Char) : Bool := 0x1F < c.toNat && c.toNat ≠ 0x7F

def lower (cs : List Char) : String := (String.ofList cs).toLower

/-- The characters up to the quote that ends a value; the first one never ends it. -/
def quotedValue? : List Char → Option (List Char × List Char)
  | [] => none
  | c :: cs =>
    let body := c :: cs.takeWhile (· ≠ '"')
    match cs.dropWhile (· ≠ '"') with
    | _ :: rest => if body.all isQuotable then some (body, rest) else none
    | [] => none

/-- What follows the value of a parameter: nothing, or more parameters. -/
def afterValue? : List Char → Option (List Char)
  | [] => some []
  | ';' :: rest => some rest
  | _ => none

/-- The first parameter and what follows it. -/
def param? (cs : List Char) : Option ((String × String) × List Char) :=
  let name := cs.takeWhile isToken
  match name, cs.dropWhile isToken with
  | [], _ => none
  | _, '=' :: '"' :: rest =>
    (quotedValue? rest).bind fun (value, rest) =>
      (afterValue? (rest.dropWhile (· = ' '))).map fun rest =>
        ((lower name, String.ofList value), rest)
  | _, '=' :: rest =>
    let value := rest.takeWhile isToken
    match value, rest.dropWhile isToken with
    | [], _ :: _ => none
    | _, more => (afterValue? more).map fun rest => ((lower name, String.ofList value), rest)
  | _, _ => none

/-- The parameters of a text; `fuel` is at least its length. -/
def paramsFrom : Nat → List Char → Option (List (String × String))
  | _, [] => some []
  | 0, _ => none
  | fuel + 1, ' ' :: rest => paramsFrom fuel rest
  | fuel + 1, cs => do
    let (p, rest) ← param? cs
    return p :: (← paramsFrom fuel rest)

/-- The characters before the last plus sign, if there is one after the first character. -/
def beforePlus (cs : List Char) : List Char :=
  match cs with
  | [] => []
  | c :: rest =>
    if '+' ∈ rest then c :: ((rest.reverse.dropWhile (· ≠ '+')).drop 1).reverse else cs

def ofText? (s : String) : Option MediaType :=
  let cs := s.toList
  let main := cs.takeWhile isToken
  match main, cs.dropWhile isToken with
  | [], _ => none
  | _, '/' :: rest =>
    let sub := rest.takeWhile isToken
    match sub, rest.dropWhile isToken with
    | _, [] => some ⟨lower main, lower (beforePlus sub), []⟩
    | [], _ => none
    | _, ';' :: ps => (paramsFrom ps.length ps).map fun params =>
        ⟨lower main, lower (beforePlus sub), params⟩
    | _, _ => none
  | _, _ => none

/-- What separates the parts of a form, if this is the type of one. -/
def boundary? (m : MediaType) : Option String :=
  if m.main = "multipart" && m.sub = "form-data" then m.params.lookup "boundary" else none

end MediaType

end Vetting.Http
