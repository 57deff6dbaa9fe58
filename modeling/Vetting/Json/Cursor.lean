import Vetting.Json.Fault
import Vetting.Text.Utf8

/-!
A place in a JSON text: the bytes still to be read and the position reached. A fault is reported
either `here`, for bytes already read, or `ahead`, for the byte that comes next.
-/

namespace Vetting.Json

open Text (Bytes)

structure Cursor where
  rest : Bytes
  place : Position

namespace Cursor

def start (b : Bytes) : Cursor := ⟨b, ⟨1, 0⟩⟩

def after (b : UInt8) (p : Position) : Position :=
  if b = 0x0A then ⟨p.line + 1, 0⟩ else ⟨p.line, p.column + 1⟩

def peek (c : Cursor) : Option UInt8 := c.rest.head?

/-- Passes over the next byte. -/
def skip (c : Cursor) : Cursor :=
  match c.rest with
  | [] => c
  | b :: rest => ⟨rest, after b c.place⟩

def here (c : Cursor) (cause : Cause) : Fault := ⟨cause, c.place⟩

def ahead (c : Cursor) (cause : Cause) : Fault := ⟨cause, c.skip.place⟩

def isSpace (b : UInt8) : Bool := b = 0x20 || b = 0x0A || b = 0x09 || b = 0x0D

/-- Passes over the bytes that satisfy `p`. -/
def skipWhileFrom (p : UInt8 → Bool) : Bytes → Position → Cursor
  | [], place => ⟨[], place⟩
  | b :: rest, place =>
    if p b then skipWhileFrom p rest (after b place) else ⟨b :: rest, place⟩

def skipSpace (c : Cursor) : Cursor := skipWhileFrom isSpace c.rest c.place

def isDigit (b : UInt8) : Bool := 0x30 ≤ b && b ≤ 0x39

/-- The digits at the front and what follows them. -/
def digits (c : Cursor) : List Nat × Cursor :=
  ((c.rest.takeWhile isDigit).map fun b => b.toNat - 0x30, skipWhileFrom isDigit c.rest c.place)

/-- Reads the rest of a fixed word. -/
def word (c : Cursor) : List UInt8 → Except Fault Cursor
  | [] => .ok c
  | expected :: more =>
    match c.peek with
    | none => .error (c.here .endOfValue)
    | some b => if b = expected then c.skip.word more else .error (c.skip.here .expectedWord)

end Cursor

end Vetting.Json
