import Vetting.Json.Printer
import Vetting.Text.Utf8

/-!
Requests and responses of HTTP. Header names are kept in small letters.
-/

namespace Vetting.Http

open Text (Bytes utf8 ofUtf8?)

abbrev Headers := List (String × Bytes)

structure Request where
  method : String
  /-- Path and query as they are sent. -/
  target : Bytes
  headers : Headers
  body : Bytes

namespace Request

/-- The target without a fragment. -/
def address (r : Request) : Bytes := r.target.takeWhile (· ≠ 0x23)

def path (r : Request) : Bytes := r.address.takeWhile (· ≠ 0x3F)

/-- What follows the first question mark. -/
def query (r : Request) : Bytes := (r.address.dropWhile (· ≠ 0x3F)).drop 1

end Request

structure Response where
  status : UInt16
  headers : Headers
  body : Bytes
  deriving DecidableEq, Repr

/-- A header's value as a text, if it has only visible ASCII characters, blanks and tabs. -/
def visible? (value : Bytes) : Option String :=
  if value.all fun b => b = 0x09 || (0x20 ≤ b && b < 0x7F) then ofUtf8? value else none

namespace Headers

/-- The values of all headers of a name, in order. -/
def all (name : String) (hs : Headers) : List Bytes :=
  (hs.filter fun h => h.1 = name).map (·.2)

def first? (name : String) (hs : Headers) : Option Bytes := (all name hs).head?

/-- The values of all headers of a name that are texts. -/
def texts (name : String) (hs : Headers) : List String := (all name hs).filterMap visible?

end Headers

namespace Response

def json (status : UInt16) (j : Json) : Response :=
  ⟨status, [("content-type", utf8 "application/json")], utf8 j.render⟩

def text (status : UInt16) (s : String) : Response :=
  ⟨status, [("content-type", utf8 "text/plain; charset=utf-8")], utf8 s⟩

def empty (status : UInt16) : Response := ⟨status, [], []⟩

/-- The answer to a request that asks for the head of a response only. -/
def withoutBody (r : Response) : Response := { r with body := [] }

/-- A failure as it is told to clients. -/
def failure (status : UInt16) (message : String) : Response :=
  json status (Json.object [("success", .bool false), ("message", .str message)])

end Response

end Vetting.Http
