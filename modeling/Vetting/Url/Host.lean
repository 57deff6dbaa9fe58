import Vetting.Text.Digits
import Vetting.Url.Percent
import Vetting.Url.Punycode

/-!
Hosts of addresses: names, IPv4 and IPv6 numbers, and the free hosts of schemes that are not
special. A name whose last part is a number is an IPv4 number or wrong.
-/

namespace Vetting.Url

open Text (Bytes utf8 lossy ofUtf8?)

/-- Why a text is no address. -/
inductive Fault where
  | emptyHost
  | invalidName
  | invalidPort
  | invalidIpv4
  | invalidIpv6
  | invalidCharacter
  | relative
  | noBase
  deriving DecidableEq, Repr

def Fault.message : Fault → String
  | .emptyHost => "empty host"
  | .invalidName => "invalid international domain name"
  | .invalidPort => "invalid port number"
  | .invalidIpv4 => "invalid IPv4 address"
  | .invalidIpv6 => "invalid IPv6 address"
  | .invalidCharacter => "invalid domain character"
  | .relative => "relative URL without a base"
  | .noBase => "relative URL with a cannot-be-a-base base"

namespace Host

/-- Splits at every occurrence of a character. -/
def splitOn (sep : Char) : List Char → List (List Char)
  | [] => [[]]
  | c :: cs =>
    match splitOn sep cs with
    | [] => [[c]]
    | part :: parts => if c = sep then [] :: part :: parts else (c :: part) :: parts

/-- Characters that no host may have. -/
def isForbidden (c : Char) : Bool :=
  c.toNat = 0 || c.toNat = 9 || c.toNat = 10 || c.toNat = 13 ||
    [' ', '#', '/', ':', '<', '>', '?', '@', '[', '\\', ']', '^', '|'].contains c

def isForbiddenInName (c : Char) : Bool :=
  isForbidden c || c.toNat < 0x20 || c = '%' || c.toNat = 0x7F

def digitIn (base : Nat) (c : Char) : Option Nat :=
  let n := c.toNat
  let d := if 0x30 ≤ n && n ≤ 0x39 then n - 0x30
    else if 0x61 ≤ n && n ≤ 0x66 then n - 0x57
    else if 0x41 ≤ n && n ≤ 0x46 then n - 0x37
    else 16
  if d < base then some d else none

/-- A part of an IPv4 number: hexadecimal after `0x`, octal after `0`, else decimal. -/
def ipv4Part? (cs : List Char) : Option Nat :=
  let (base, ds) := match cs with
    | '0' :: 'x' :: rest => (16, rest)
    | '0' :: 'X' :: rest => (16, rest)
    | '0' :: d :: rest => (8, d :: rest)
    | _ => (10, cs)
  if cs.isEmpty then none
  else ds.foldlM (fun n c => (digitIn base c).map (n * base + ·)) 0

def ipv4Labels (cs : List Char) : List (List Char) :=
  let parts := splitOn '.' cs
  match parts.reverse with
  | [] :: rest => if rest.isEmpty then parts else rest.reverse
  | _ => parts

/-- Whether the last part is a number. -/
def endsInNumber (cs : List Char) : Bool :=
  match (ipv4Labels cs).getLast? with
  | none => false
  | some last =>
    (!last.isEmpty && last.all Text.isDigit) ||
      (match last with
        | '0' :: x :: _ => (x = 'x' || x = 'X') && (ipv4Part? last).isSome
        | _ => false)

/-- The 32 bits of an IPv4 number; the last part stands for all that remain. -/
def ipv4? (cs : List Char) : Option Nat := do
  let labels := ipv4Labels cs
  if labels.length > 4 then none
  else do
    let parts ← labels.mapM ipv4Part?
    let last ← parts.getLast?
    let front := parts.dropLast
    if front.any (· > 255) || last ≥ Nat.pow 256 (5 - parts.length) then none
    else some (front.zipIdx.foldl (fun n (p, i) => n + p * Nat.pow 256 (3 - i)) last)

def renderIpv4 (n : Nat) : List Char :=
  (".".intercalate ([3, 2, 1, 0].map fun i => toString (n / Nat.pow 256 i % 256))).toList

/-- Reads an IPv6 piece of at most four hexadecimal digits. -/
def hexPiece (cs : List Char) : Option Nat :=
  if cs.isEmpty || cs.length > 4 then none
  else cs.foldlM (fun n c => (digitIn 16 c).map (n * 16 + ·)) 0

/-- The pieces of one side of `::`; the last may be an IPv4 number in dotted form. -/
def ipv6Side (isLast : Bool) (cs : List Char) : Option (List Nat) :=
  if cs.isEmpty then some []
  else
    let parts := splitOn ':' cs
    let rec go : List (List Char) → Option (List Nat)
      | [] => some []
      | [p] =>
        if isLast && p.contains '.' then
          let quads := splitOn '.' p
          if quads.length ≠ 4 then none
          else do
            let ns ← quads.mapM fun q =>
              if q.isEmpty || q.length > 3 || !q.all Text.isDigit ||
                  (q.length > 1 && q.head? = some '0')
              then none
              else if Text.ofDigits q < 256 then some (Text.ofDigits q) else none
            match ns with
            | [a, b, c, d] => some [a * 256 + b, c * 256 + d]
            | _ => none
        else (hexPiece p).map ([·])
      | p :: q :: ps => do
        let n ← hexPiece p
        let ns ← go (q :: ps)
        some (n :: ns)
    go parts

/-- What stands before and after the first `::`. -/
def splitAtDouble : List Char → Option (List Char × List Char)
  | ':' :: ':' :: rest => some ([], rest)
  | c :: rest => (splitAtDouble rest).map fun (a, b) => (c :: a, b)
  | [] => none

/-- The eight pieces of an IPv6 number. -/
def ipv6? (cs : List Char) : Option (List Nat) :=
  match splitAtDouble cs with
  | some (a, b) => do
    let front ← ipv6Side false a
    let back ← ipv6Side true b
    if front.length + back.length < 8 then
      some (front ++ List.replicate (8 - front.length - back.length) 0 ++ back)
    else none
  | none => do
    let all ← ipv6Side true cs
    if all.length = 8 then some all else none

/-- The first longest run of zero pieces with at least two of them: where it starts and its
length. -/
def longestZeros (pieces : List Nat) : Option (Nat × Nat) :=
  let runs := (List.range pieces.length).map fun i =>
    (i, ((pieces.drop i).takeWhile (· = 0)).length)
  let best := runs.foldl (fun (b : Nat × Nat) r => if r.2 > b.2 then r else b) (0, 0)
  if best.2 ≥ 2 then some best else none

def renderPieces (pieces : List Nat) : String :=
  ":".intercalate (pieces.map fun n => String.ofList (Nat.toDigits 16 n))

def renderIpv6 (pieces : List Nat) : List Char :=
  let body := match longestZeros pieces with
    | some (i, n) => renderPieces (pieces.take i) ++ "::" ++ renderPieces (pieces.drop (i + n))
    | none => renderPieces pieces
  ('[' :: body.toList) ++ [']']

def lowerAscii (c : Char) : Char := if 'A' ≤ c ∧ c ≤ 'Z' then Char.ofNat (c.toNat + 32) else c

/-- The written form of the host of a special scheme. -/
def special (cs : List Char) : Except Fault (List Char) :=
  match cs with
  | '[' :: rest =>
    match rest.reverse with
    | ']' :: inner =>
      match ipv6? inner.reverse with
      | some pieces => .ok (renderIpv6 pieces)
      | none => .error .invalidIpv6
    | _ => .error .invalidIpv6
  | _ =>
    let name := lossy (decode (utf8 (String.ofList cs)))
    let labels := (splitOn '.' name.toList).map fun l => Punycode.toAscii (l.map lowerAscii)
    let ascii := ['.'].intercalate labels
    if ascii.any fun c => isForbiddenInName c || c.toNat = 0xFFFD then .error .invalidName
    else if ascii.isEmpty then .error .emptyHost
    else if endsInNumber ascii then
      match ipv4? ascii with
      | some n => .ok (renderIpv4 n)
      | none => .error .invalidIpv4
    else .ok ascii

/-- The written form of the host of any other scheme. -/
def free (cs : List Char) : Except Fault (List Char) :=
  match cs with
  | '[' :: _ => special cs
  | _ =>
    if cs.any isForbidden then .error .invalidCharacter
    else .ok (encodeChars [] cs)

end Host

end Vetting.Url
