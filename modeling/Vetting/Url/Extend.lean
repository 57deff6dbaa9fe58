import Vetting.Url.Parser

/-!
Addresses below a base: segments are added to the path, each encoded as one segment, and names and
values to the query, as a form writes them. What the base has already is kept.
-/

namespace Vetting.Url

open Text (Bytes utf8)

/-- A segment as it is written. -/
def encodeSegment (special : Bool) (s : String) : List Char :=
  encodeChars (if special then Reserved.inSpecialSegment else Reserved.inSegment)
    (s.toList.filter fun c => !isDropped c)

/-- Adds a segment; a path that is a slash only has no segment yet. `.` and `..` add none, and
where they come about only by dropped characters they are resolved. -/
def addSegment (special : Bool) (ss : List (List Char)) (s : String) : List (List Char) :=
  if s = "." || s = ".." then ss
  else
    let base := if ss = [[]] then [] else ss
    match encodeSegment special s with
    | ['.'] => base ++ [[]]
    | ['.', '.'] => base.dropLast ++ [[]]
    | segment => base ++ [segment]

/-- Drops an empty segment at the end of a path. -/
def popEmpty (ss : List (List Char)) : List (List Char) :=
  if ss.length > 1 && ss.getLast? = some [] then ss.dropLast else ss

/-- The address with more segments, if its path has segments at all. -/
def below? (u : Url) (segments : List String) : Option Url :=
  match u.path with
  | .plain _ => none
  | .segments ss =>
    let path := segments.foldl (addSegment (isSpecial u.scheme)) (popEmpty ss)
    some { u with path := .segments path }

def isPlainInForm (b : UInt8) : Bool :=
  let c := Char.ofNat b.toNat
  b < 0x80 && (c.isAlphanum || c = '*' || c = '-' || c = '.' || c = '_')

/-- A name or value in a query: blanks become plus signs. -/
def encodeForm (s : String) : List Char :=
  (utf8 s).flatMap fun b =>
    if b = 0x20 then ['+'] else if isPlainInForm b then [Char.ofNat b.toNat] else encodeByte b

def encodePair (p : String × String) : List Char := encodeForm p.1 ++ '=' :: encodeForm p.2

/-- Adds pairs to a query. -/
def addPairs (query : List Char) (ps : List (String × String)) : List Char :=
  ps.foldl (fun q p => if q.isEmpty then encodePair p else q ++ '&' :: encodePair p) query

/-- The address with more names and values in its query. An empty query is left out. -/
def withQuery (u : Url) (ps : List (String × String)) : Url :=
  let query := addPairs (u.query.getD []) ps
  { u with query := if query.isEmpty then none else some query }

end Vetting.Url
