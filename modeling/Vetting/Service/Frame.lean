import Vetting.Service.Client

/-!
Requests to services and their responses as they go over a connection that is closed after one
exchange.
-/

namespace Vetting

open Text (Bytes utf8)

namespace Url

/-- Path and query as they are sent. -/
def target (u : Url) : String :=
  String.ofList (u.path.render ++ (u.query.map ('?' :: ·)).getD [])

/-- The host, in brackets if it is a number of the long kind, and the port if it is written. -/
def hostAndPort (u : Url) : List Char × Option (List Char) :=
  let authority := u.authority.getD []
  splitPort false (((splitLast '@' authority).map (·.2)).getD authority)

/-- The host without brackets. -/
def host (u : Url) : String :=
  String.ofList (u.hostAndPort.1.filter fun c => c ≠ '[' && c ≠ ']')

/-- The port that connections go to. -/
def port? (u : Url) : Option Nat :=
  match u.hostAndPort.2 with
  | some digits => some (Text.ofDigits digits)
  | none => defaultPort? u.scheme

end Url

namespace Frame

def lineEnd : Bytes := [0x0D, 0x0A]

def line (b : Bytes) : Bytes := b ++ lineEnd

def header (h : String × Bytes) : Bytes := line (utf8 (h.1 ++ ": ") ++ h.2)

/-- A request as it is sent. -/
def request (o : Outgoing) : Bytes :=
  let body := (o.body.map fun j => utf8 j.render).getD []
  let (host, port) := o.url.hostAndPort
  let written := String.ofList (host ++ (port.map (':' :: ·)).getD [])
  line (utf8 (o.method ++ " " ++ o.url.target ++ " HTTP/1.1")) ++
    (o.headers ++ [("host", utf8 written), ("connection", utf8 "close"),
      ("content-length", utf8 (toString body.length))]).flatMap header ++ lineEnd ++ body

/-- The text before the first empty line, and what follows it. -/
def splitHead : Bytes → Option (Bytes × Bytes)
  | [] => none
  | 0x0D :: 0x0A :: 0x0D :: 0x0A :: rest => some ([], rest)
  | b :: rest => (splitHead rest).map fun (head, rest) => (b :: head, rest)

/-- The lines of a head. -/
def lines (head : Bytes) : List Bytes :=
  (head.splitOn 0x0A).map fun l => if l.getLast? = some 0x0D then l.dropLast else l

def trim (b : Bytes) : Bytes :=
  let blank (x : UInt8) : Bool := x = 0x20 || x = 0x09
  ((b.dropWhile blank).reverse.dropWhile blank).reverse

def headerOf? (l : Bytes) : Option (String × Bytes) :=
  let name := l.takeWhile (· ≠ 0x3A)
  if name.length = l.length then none
  else (Text.ofUtf8? (name.map Text.asciiLower)).map fun n => (n, trim (l.drop (name.length + 1)))

def digitsOf? (b : Bytes) (base : Nat) (digit? : UInt8 → Option Nat) : Option Nat :=
  if b.isEmpty then none
  else b.foldlM (fun n x => (digit? x).map (n * base + ·)) 0

def decimal? (b : Bytes) : Option Nat :=
  digitsOf? b 10 fun x => if 0x30 ≤ x && x ≤ 0x39 then some (x.toNat - 0x30) else none

/-- The status of a status line. -/
def statusOf? (l : Bytes) : Option UInt16 :=
  if !(utf8 "HTTP/1.").isPrefixOf l then none
  else (decimal? (((l.dropWhile (· ≠ 0x20)).drop 1).take 3)).map UInt16.ofNat

/-- A body in pieces, each after its length in hexadecimal digits; the last one is empty. -/
def joinPieces : Nat → Bytes → Option Bytes
  | 0, _ => none
  | fuel + 1, b => do
    let head := b.takeWhile (· ≠ 0x0A)
    let length ← digitsOf? (head.takeWhile fun x => (Json.Quoted.hexDigit? x).isSome) 16
      Json.Quoted.hexDigit?
    let rest := b.drop (head.length + 1)
    if length = 0 then return []
    if rest.length < length + 2 then none
    let more ← joinPieces fuel (rest.drop (length + 2))
    return rest.take length ++ more

/-- The body behind a head; `none` if it broke off. -/
def body? (headers : Http.Headers) (rest : Bytes) : Option Bytes :=
  match Http.Headers.first? "transfer-encoding" headers,
    (Http.Headers.first? "content-length" headers).bind decimal? with
  | some _, _ => joinPieces (rest.length + 1) rest
  | none, some n => if rest.length < n then none else some (rest.take n)
  | none, none => some rest

/-- Reads all that came over a connection. Responses that announce another one are passed over. -/
def received : Nat → Bytes → Received
  | 0, _ => .nothing (.broken "no response")
  | fuel + 1, b =>
    match splitHead b with
    | none => .nothing (.broken "connection closed before message completed")
    | some (head, rest) =>
      match lines head with
      | [] => .nothing (.broken "no response")
      | first :: more =>
        match statusOf? first with
        | none => .nothing (.broken "invalid HTTP version parsed")
        | some status =>
          if 100 ≤ status && status < 200 then received fuel rest
          else match body? (more.filterMap headerOf?) rest with
            | some body => .head status (.ok body)
            | none => .head status (.error (.broken "error decoding response body"))

end Frame

/-- What came back, if this is all that came. -/
def Received.ofBytes (b : Bytes) : Received := Frame.received (b.length + 1) b

end Vetting
