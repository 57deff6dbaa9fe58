import Vetting.Json.Cursor

/-!
Strings in JSON texts: reading after the opening quote, passing over without decoding, and
writing. Only quotes, backslashes and control characters are escaped when written.
-/

namespace Vetting.Json.Quoted

open Text (Bytes utf8 ofUtf8?)

def hexDigit? (b : UInt8) : Option Nat :=
  if 0x30 ≤ b && b ≤ 0x39 then some (b.toNat - 0x30)
  else if 0x41 ≤ b && b ≤ 0x46 then some (b.toNat - 0x41 + 10)
  else if 0x61 ≤ b && b ≤ 0x66 then some (b.toNat - 0x61 + 10)
  else none

/-- The byte a one-letter escape stands for. -/
def letterEscape? (b : UInt8) : Option UInt8 :=
  if b = 0x22 ∨ b = 0x5C ∨ b = 0x2F then some b
  else if b = 0x62 then some 0x08
  else if b = 0x66 then some 0x0C
  else if b = 0x6E then some 0x0A
  else if b = 0x72 then some 0x0D
  else if b = 0x74 then some 0x09
  else none

/-- Reads four hexadecimal digits. -/
def fourHex (c : Cursor) : Except Fault (Nat × Cursor) :=
  match c.rest with
  | a :: b :: d :: e :: _ =>
    let after := c.skip.skip.skip.skip
    match hexDigit? a, hexDigit? b, hexDigit? d, hexDigit? e with
    | some w, some x, some y, some z => .ok (((w * 16 + x) * 16 + y) * 16 + z, after)
    | _, _, _, _ => .error (after.here .invalidEscape)
  | _ => .error ((Cursor.skipWhileFrom (fun _ => true) c.rest c.place).here .endOfString)

def isLeading (n : Nat) : Bool := 0xD800 ≤ n && n ≤ 0xDBFF

def isTrailing (n : Nat) : Bool := 0xDC00 ≤ n && n ≤ 0xDFFF

def charBytes (n : Nat) : Bytes := utf8 (String.ofList [Char.ofNat n])

/-- Reads the number of a `\u` escape, with its second half where it is a surrogate. -/
def unicodeEscape (c : Cursor) : Except Fault (Bytes × Cursor) := do
  let (n, c) ← fourHex c
  if isTrailing n then .error (c.here .loneSurrogate)
  else if isLeading n then
    match c.peek with
    | none => .error (c.here .endOfString)
    | some 0x5C =>
      let c := c.skip
      match c.peek with
      | none => .error (c.here .endOfString)
      | some 0x75 =>
        let (m, c) ← fourHex c.skip
        if isTrailing m then
          .ok (charBytes ((n - 0xD800) * 1024 + (m - 0xDC00) + 0x10000), c)
        else .error (c.here .loneSurrogate)
      | some _ => .error (c.skip.here .unfinishedSurrogate)
    | some _ => .error (c.skip.here .unfinishedSurrogate)
  else .ok (charBytes n, c)

/-- Reads what follows a backslash. -/
def escape (c : Cursor) : Except Fault (Bytes × Cursor) :=
  match c.peek with
  | none => .error (c.here .endOfString)
  | some 0x75 => unicodeEscape c.skip
  | some b =>
    match letterEscape? b with
    | some x => .ok ([x], c.skip)
    | none => .error (c.skip.here .invalidEscape)

/-- Reads up to the closing quote; `acc` holds the bytes read so far, the last one first. Each step
takes a byte, so the bytes left, given first, bound the steps. -/
def body : Bytes → Bytes → Cursor → Except Fault (String × Cursor)
  | [], _, c => .error (c.here .endOfString)
  | _ :: bound, acc, c =>
    match c.peek with
    | none => .error (c.here .endOfString)
    | some b =>
      if b = 0x22 then
        match ofUtf8? acc.reverse with
        | some s => .ok (s, c.skip)
        | none => .error (c.here .invalidUnicode)
      else if b = 0x5C then do
        let (bytes, c) ← escape c.skip
        body bound (bytes.reverse ++ acc) c
      else if b < 0x20 then .error (c.skip.here .controlCharacter)
      else body bound (b :: acc) c.skip

/-- Reads a string after its opening quote. -/
def read (c : Cursor) : Except Fault (String × Cursor) := body c.rest [] c

/-- Passes over a string after its opening quote. Escapes must be well-formed one by one; bytes and
surrogates are not looked at. -/
def passBody : Bytes → Cursor → Except Fault Cursor
  | [], c => .error (c.here .endOfString)
  | _ :: bound, c =>
    match c.peek with
    | none => .error (c.here .endOfString)
    | some b =>
      if b = 0x22 then .ok c.skip
      else if b = 0x5C then
        let c := c.skip
        match c.peek with
        | none => .error (c.here .endOfString)
        | some 0x75 => do
          let (_, c) ← fourHex c.skip
          passBody bound c
        | some e =>
          if (letterEscape? e).isSome then passBody bound c.skip
          else .error (c.skip.here .invalidEscape)
      else if b < 0x20 then .error (c.here .controlCharacter)
      else passBody bound c.skip

def pass (c : Cursor) : Except Fault Cursor := passBody c.rest c

def hexChar (n : Nat) : Char := if n < 10 then Char.ofNat (0x30 + n) else Char.ofNat (0x57 + n)

/-- A character as it stands in a written string. -/
def encodeChar (c : Char) : List Char :=
  if c = '"' then ['\\', '"']
  else if c = '\\' then ['\\', '\\']
  else if c.toNat < 0x20 then
    if c = '\n' then ['\\', 'n']
    else if c = '\r' then ['\\', 'r']
    else if c = '\t' then ['\\', 't']
    else if c.toNat = 0x08 then ['\\', 'b']
    else if c.toNat = 0x0C then ['\\', 'f']
    else ['\\', 'u', '0', '0', hexChar (c.toNat / 16), hexChar (c.toNat % 16)]
  else [c]

def encode (s : String) : List Char := '"' :: s.toList.flatMap encodeChar ++ ['"']

end Vetting.Json.Quoted
