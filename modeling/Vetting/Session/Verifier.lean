import Vetting.Http.Message
import Vetting.Refusal
import Vetting.Session.Token
import Vetting.Text.Blank

/-!
Sessions. The token of a session comes in a cookie or, if there is no cookie of the session's name,
after the word `Bearer` in the authorization header.
-/

namespace Vetting.Session

open Text (Bytes utf8)

/-- How sessions are told: the secret that their tokens are signed with, and a cookie's name. -/
structure Verifier where
  secret : String
  cookieName : String
  deriving DecidableEq, Repr

/-- The name and value of a cookie; what has no equals sign is no cookie. -/
def cookieOf? (pair : List Char) : Option (String × String) :=
  let cs := Text.trimChars pair
  if '=' ∈ cs then
    some (String.ofList (cs.takeWhile (· ≠ '=')), String.ofList ((cs.dropWhile (· ≠ '=')).drop 1))
  else none

def cookies (hs : Http.Headers) : List (String × String) :=
  (hs.texts "cookie").flatMap fun s => (s.toList.splitOn ';').filterMap cookieOf?

def bearer : String := "Bearer "

/-- What follows the word `Bearer` in the first authorization header. -/
def bearerToken? (hs : Http.Headers) : Option String :=
  ((hs.first? "authorization").bind Http.visible?).bind fun s =>
    if bearer.toList.isPrefixOf s.toList then some (String.ofList (s.toList.drop bearer.length))
    else none

/-- The token that a request shows. An empty one is none. -/
def Verifier.token? (v : Verifier) (hs : Http.Headers) : Option String :=
  let shown := match (cookies hs).lookup v.cookieName with
    | some value => some value
    | none => bearerToken? hs
  shown.filter fun t => !t.isEmpty

def unauthorized : Refusal := ⟨.unauthorized, "invalid or missing session token"⟩

/-- The identity behind a request. -/
def Verifier.verify (v : Verifier) (now : Nat) (hs : Http.Headers) : Except Refusal Identity :=
  match (v.token? hs).bind (Token.verify? (utf8 v.secret) now) with
  | some i => .ok i
  | none => .error unauthorized

end Vetting.Session
