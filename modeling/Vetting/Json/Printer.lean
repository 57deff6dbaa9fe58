import Vetting.Json.Quoted
import Vetting.Json.Value
import Vetting.Double.Shortest

/-!
JSON values as compact text: no blanks, members in the order of their keys.
-/

namespace Vetting.Json

def Number.render : Number → String
  | .int i => toString i
  | .double d => d.render

/-- The parts with a comma between any two. -/
def commaSeparated : List (List Char) → List Char
  | [] => []
  | [p] => p
  | p :: q :: ps => p ++ ',' :: commaSeparated (q :: ps)

mutual

def chars : Json → List Char
  | .null => ['n', 'u', 'l', 'l']
  | .bool true => ['t', 'r', 'u', 'e']
  | .bool false => ['f', 'a', 'l', 's', 'e']
  | .num n => n.render.toList
  | .str s => Quoted.encode s
  | .arr items => '[' :: commaSeparated (itemChars items) ++ [']']
  | .obj members => '\x7b' :: commaSeparated (memberChars members) ++ ['\x7d']

def itemChars : List Json → List (List Char)
  | [] => []
  | j :: js => chars j :: itemChars js

def memberChars : List (String × Json) → List (List Char)
  | [] => []
  | (k, v) :: ms => (Quoted.encode k ++ ':' :: chars v) :: memberChars ms

end

def render (j : Json) : String := String.ofList (chars j)

end Vetting.Json
