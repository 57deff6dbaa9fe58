import Vetting.Text.Utf8

/-!
Percent encoding. Which ASCII characters are encoded depends on the part of an address; bytes
outside ASCII always are. Decoding leaves a percent sign without two hexadecimal digits as it is.
-/

namespace Vetting.Url

open Text (Bytes utf8)

/-- The ASCII characters that are encoded in a part of an address. -/
abbrev Reserved := List Char

namespace Reserved

def inFragment : Reserved := [' ', '"', '<', '>', '\x60']

def inQuery : Reserved := [' ', '"', '#', '<', '>']

def inSpecialQuery : Reserved := '\'' :: inQuery

def inPath : Reserved := inFragment ++ ['#', '?', '\x7b', '\x7d', '^']

def inUserinfo : Reserved := inPath ++ ['/', ':', ';', '=', '@', '[', '\\', ']', '|']

/-- In a segment of a path that is added as it is. -/
def inSegment : Reserved := inPath ++ ['/', '%']

def inSpecialSegment : Reserved := '\\' :: inSegment

end Reserved

def isEncoded (set : Reserved) (b : UInt8) : Bool :=
  b < 0x20 || 0x7F ≤ b || set.any fun c => c.toNat = b.toNat

def hexUpper (n : Nat) : Char := if n < 10 then Char.ofNat (0x30 + n) else Char.ofNat (0x37 + n)

def encodeByte (b : UInt8) : List Char := ['%', hexUpper (b.toNat / 16), hexUpper (b.toNat % 16)]

def encode (set : Reserved) (b : Bytes) : List Char :=
  b.flatMap fun x => if isEncoded set x then encodeByte x else [Char.ofNat x.toNat]

def encodeChars (set : Reserved) (cs : List Char) : List Char :=
  encode set (utf8 (String.ofList cs))

def hexValue? (b : UInt8) : Option Nat :=
  if 0x30 ≤ b && b ≤ 0x39 then some (b.toNat - 0x30)
  else if 0x41 ≤ b && b ≤ 0x46 then some (b.toNat - 0x41 + 10)
  else if 0x61 ≤ b && b ≤ 0x66 then some (b.toNat - 0x61 + 10)
  else none

/-- Decodes; `skip` bytes of an escape are still to be passed over. -/
def decodeFrom : Nat → Bytes → Bytes
  | _, [] => []
  | skip + 1, _ :: rest => decodeFrom skip rest
  | 0, b :: rest =>
    if b = 0x25 then
      match rest with
      | x :: y :: _ =>
        match hexValue? x, hexValue? y with
        | some h, some l => UInt8.ofNat (h * 16 + l) :: decodeFrom 2 rest
        | _, _ => b :: decodeFrom 0 rest
      | _ => b :: decodeFrom 0 rest
    else b :: decodeFrom 0 rest

def decode (b : Bytes) : Bytes := decodeFrom 0 b

end Vetting.Url
