import Vetting.Url.Host

/-!
Addresses in normal form. The parser trims controls and blanks, drops tabs and line ends, resolves
`.` and `..`, leaves out a port that is the scheme's own, and encodes what has to be encoded, so an
address is written in one way only.
-/

namespace Vetting

open Text (Bytes utf8)

/-- The path of an address: segments after slashes, or a text without structure. -/
inductive Url.Path where
  | segments (ss : List (List Char))
  | plain (cs : List Char)
  deriving DecidableEq

structure Url where
  scheme : List Char
  /-- What stands between `//` and the path, if it is there. -/
  authority : Option (List Char)
  path : Url.Path
  query : Option (List Char)
  fragment : Option (List Char)
  deriving DecidableEq

namespace Url

/-- The port that a special scheme implies; `none` for a special scheme without ports. -/
def specialPorts : List (String × Option Nat) :=
  [("http", some 80), ("https", some 443), ("ws", some 80), ("wss", some 443), ("ftp", some 21),
    ("file", none)]

def isSpecial (scheme : List Char) : Bool :=
  (specialPorts.lookup (String.ofList scheme)).isSome

def defaultPort? (scheme : List Char) : Option Nat :=
  (specialPorts.lookup (String.ofList scheme)).bind id

def isTrimmed (c : Char) : Bool := c.toNat ≤ 0x20

def isDropped (c : Char) : Bool := c = '\t' || c = '\n' || c = '\r'

def clean (cs : List Char) : List Char :=
  ((((cs.dropWhile isTrimmed).reverse).dropWhile isTrimmed).reverse).filter fun c => !isDropped c

def isLetter (c : Char) : Bool := ('a' ≤ c && c ≤ 'z') || ('A' ≤ c && c ≤ 'Z')

def isSchemeChar (c : Char) : Bool :=
  isLetter c || Text.isDigit c || c = '+' || c = '-' || c = '.'

/-- The scheme and what follows its colon. -/
def splitScheme (cs : List Char) : Except Fault (List Char × List Char) :=
  match cs with
  | [] => .error .relative
  | c :: _ =>
    if !isLetter c then .error .relative
    else
      match cs.dropWhile isSchemeChar with
      | ':' :: rest => .ok ((cs.takeWhile isSchemeChar).map Host.lowerAscii, rest)
      | _ => .error .relative

/-- Whether a character ends the part before the path. -/
def endsAuthority (special : Bool) (c : Char) : Bool :=
  c = '/' || c = '?' || c = '#' || (special && c = '\\')

/-- The text before the last `c`, and what follows it. -/
def splitLast (c : Char) (cs : List Char) : Option (List Char × List Char) :=
  if cs.contains c then
    let back := cs.reverse.takeWhile (· ≠ c)
    some ((cs.reverse.drop (back.length + 1)).reverse, back.reverse)
  else none

/-- Name and password before the host, with the `@` that ends them. -/
def renderUserinfo (cs : List Char) : List Char :=
  let name := encodeChars Reserved.inUserinfo (cs.takeWhile (· ≠ ':'))
  let password := match cs.dropWhile (· ≠ ':') with
    | [] => []
    | _ :: rest => encodeChars Reserved.inUserinfo rest
  if name.isEmpty && password.isEmpty then []
  else name ++ (if password.isEmpty then [] else ':' :: password) ++ ['@']

/-- Splits the host from its port; colons in brackets belong to the host. -/
def splitPort : Bool → List Char → List Char × Option (List Char)
  | _, [] => ([], none)
  | inBrackets, c :: cs =>
    if c = ':' && !inBrackets then ([], some cs)
    else
      let inBrackets := if c = '[' then true else if c = ']' then false else inBrackets
      let (host, port) := splitPort inBrackets cs
      (c :: host, port)

/-- The port, unless it is empty or the scheme's own. -/
def readPort (scheme : List Char) (cs : List Char) : Except Fault (Option Nat) :=
  if cs.isEmpty then .ok none
  else if !cs.all Text.isDigit then .error .invalidPort
  else
    let n := Text.ofDigits cs
    if n > 65535 then .error .invalidPort
    else .ok (if defaultPort? scheme = some n then none else some n)

/-- The written form of what stands between `//` and the path. -/
def readAuthority (scheme : List Char) (cs : List Char) : Except Fault (List Char) := do
  let special := isSpecial scheme
  let (user, rest) := (splitLast '@' cs).getD ([], cs)
  if user.isEmpty && cs.head? = some '@' && rest.isEmpty then throw .emptyHost
  let (host, port) := splitPort false rest
  if host.isEmpty && (special || port.isSome) then throw .emptyHost
  let host ← if special then Host.special host else Host.free host
  let port ← readPort scheme (port.getD [])
  return renderUserinfo user ++ host ++ (port.map fun n => ':' :: (toString n).toList).getD []

def isDouble (s : List Char) : Bool :=
  ["..", ".%2e", "%2e.", "%2e%2e"].contains (String.ofList (s.map Host.lowerAscii))

def isSingle (s : List Char) : Bool := [".", "%2e"].contains (String.ofList (s.map Host.lowerAscii))

/-- Resolves `.` and `..`; `done` holds the segments kept, the last one first. -/
def resolve : List (List Char) → List (List Char) → List (List Char)
  | done, [] => done.reverse
  | done, s :: rest =>
    if isDouble s then
      let done := done.tail
      resolve (if rest.isEmpty then [] :: done else done) rest
    else if isSingle s then resolve (if rest.isEmpty then [] :: done else done) rest
    else resolve (s :: done) rest

/-- The segments of a path without its first slash. -/
def readSegments (special : Bool) (cs : List Char) : List (List Char) :=
  let cs := if special then cs.map fun c => if c = '\\' then '/' else c else cs
  let parts := Host.splitOn '/' cs
  resolve [] (parts.map (encodeChars Reserved.inPath))

/-- Splits at the first `c`. -/
def splitFirst (c : Char) (cs : List Char) : List Char × Option (List Char) :=
  match cs.dropWhile (· ≠ c) with
  | [] => (cs, none)
  | _ :: rest => (cs.takeWhile (· ≠ c), some rest)

def isSlash (special : Bool) (c : Char) : Bool := c = '/' || (special && c = '\\')

/-- Reads the path after an authority. -/
def pathAfter (special : Bool) (cs : List Char) : Path :=
  match cs with
  | [] => .segments (if special then [[]] else [])
  | c :: rest => .segments (readSegments special (if isSlash special c then rest else c :: rest))

/-- Authority and path. -/
def readBody (scheme : List Char) (cs : List Char) : Except Fault (Option (List Char) × Path) := do
  let special := isSpecial scheme
  if scheme = "file".toList then
    match cs with
    | a :: b :: rest =>
      if isSlash true a && isSlash true b then
        let host := rest.takeWhile fun c => !endsAuthority true c
        let host ← if host.isEmpty then pure [] else Host.special host
        let host := if host = "localhost".toList then [] else host
        return (some host, pathAfter true (rest.dropWhile fun c => !endsAuthority true c))
      else return (some [], pathAfter true cs)
    | _ => return (some [], pathAfter true cs)
  else if special then
    let rest := cs.dropWhile (isSlash true)
    let authority ← readAuthority scheme (rest.takeWhile fun c => !endsAuthority true c)
    return (some authority, pathAfter true (rest.dropWhile fun c => !endsAuthority true c))
  else
    match cs with
    | '/' :: '/' :: rest =>
      let authority ← readAuthority scheme (rest.takeWhile fun c => !endsAuthority false c)
      return (some authority, pathAfter false (rest.dropWhile fun c => !endsAuthority false c))
    | '/' :: _ => return (none, pathAfter false cs)
    | _ => return (none, .plain (encodeChars [] cs))

/-- The address a text denotes. -/
def parse (s : String) : Except Fault Url := do
  let (scheme, rest) ← splitScheme (clean s.toList)
  let (rest, fragment) := splitFirst '#' rest
  let (body, query) := splitFirst '?' rest
  let (authority, path) ← readBody scheme body
  let querySet := if isSpecial scheme then Reserved.inSpecialQuery else Reserved.inQuery
  return {
    scheme, authority, path
    query := query.map (encodeChars querySet)
    fragment := fragment.map (encodeChars Reserved.inFragment) }

def Path.render : Path → List Char
  | .segments ss => ss.flatMap ('/' :: ·)
  | .plain cs => cs

def render (u : Url) : String :=
  String.ofList (u.scheme ++ ':' :: (u.authority.map (['/', '/'] ++ ·)).getD [] ++ u.path.render ++
    (u.query.map ('?' :: ·)).getD [] ++ (u.fragment.map ('#' :: ·)).getD [])

end Url

end Vetting
