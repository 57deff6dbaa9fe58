/-!
Texts as bytes. A text is written as its UTF-8 bytes; bytes are read back either strictly, where
one ill-formed sequence refuses the whole, or leniently, where every ill-formed sequence becomes
U+FFFD. Both readers walk the same sequence of `Piece`s.
-/

namespace Vetting.Text

abbrev Bytes := List UInt8

def utf8 (s : String) : Bytes := s.toByteArray.data.toList

/-- The text whose bytes these are, if they are well-formed UTF-8. -/
def ofUtf8? (b : Bytes) : Option String := String.fromUTF8? ⟨b.toArray⟩

theorem ofUtf8?_utf8 (s : String) : ofUtf8? (utf8 s) = some s := by
  have h : (⟨(utf8 s).toArray⟩ : ByteArray) = s.toByteArray := by simp [utf8]
  have hv : s.toByteArray.IsValidUTF8 := s.isValidUTF8
  simp only [ofUtf8?, h, String.fromUTF8?, hv, dif_pos]
  rfl

theorem utf8_ofList_cons (c : Char) (cs : List Char) :
    utf8 (String.ofList (c :: cs)) = String.utf8EncodeChar c ++ utf8 (String.ofList cs) := by
  simp [utf8, String.toByteArray_ofList, List.utf8Encode]

theorem toNat_ofNat {n : Nat} (h : n.isValidChar) : (Char.ofNat n).val.toNat = n := by
  have hchar : Char.ofNat n = Char.ofNatAux n h := dif_pos h
  rw [hchar]
  rfl

/-- The characters that bytes stand for where each stands for one. -/
def plainChars (b : Bytes) : List Char := b.map fun x => Char.ofNat x.toNat

/-- The bytes of ASCII characters are their numbers. -/
theorem utf8_plainChars {b : Bytes} (h : ∀ x ∈ b, x < 0x80) :
    utf8 (String.ofList (plainChars b)) = b := by
  induction b with
  | nil => rfl
  | cons x b ih =>
    have hx : x.toNat < 0x80 := h x List.mem_cons_self
    have hvalid : x.toNat.isValidChar := .inl (by omega)
    have hchar := toNat_ofNat hvalid
    have hrest := ih fun y hy => h y (List.mem_cons_of_mem _ hy)
    rw [plainChars, List.map_cons, ← plainChars, utf8_ofList_cons, hrest]
    simp [String.utf8EncodeChar, hchar, Nat.le_of_lt_succ hx]

/-- What stands at the front of a byte sequence: a character, or an ill-formed sequence that no
longer character can start with. Both carry the number of bytes they take. -/
inductive Piece where
  | char (c : Char) (size : Nat)
  | broken (size : Nat)

def isTail (b : UInt8) : Bool := 0x80 ≤ b && b ≤ 0xBF

def tailBits (b : UInt8) : Nat := b.toNat % 64

/-- Bounds of the second byte of a sequence, by its first byte: they exclude overlong forms,
surrogates and numbers above U+10FFFF. -/
def secondOk (first second : UInt8) : Bool :=
  if first = 0xE0 then 0xA0 ≤ second && second ≤ 0xBF
  else if first = 0xED then 0x80 ≤ second && second ≤ 0x9F
  else if first = 0xF0 then 0x90 ≤ second && second ≤ 0xBF
  else if first = 0xF4 then 0x80 ≤ second && second ≤ 0x8F
  else isTail second

/-- The piece that starts with `first`, before the bytes `rest`. -/
def pieceAt (first : UInt8) (rest : Bytes) : Piece :=
  if first < 0x80 then .char (Char.ofNat first.toNat) 1
  else if 0xC2 ≤ first && first ≤ 0xDF then
    match rest with
    | b :: _ =>
      if isTail b then .char (Char.ofNat (first.toNat % 32 * 64 + tailBits b)) 2 else .broken 1
    | [] => .broken 1
  else if 0xE0 ≤ first && first ≤ 0xEF then
    match rest with
    | b :: r =>
      if secondOk first b then
        match r with
        | c :: _ =>
          if isTail c then
            .char (Char.ofNat ((first.toNat % 16 * 64 + tailBits b) * 64 + tailBits c)) 3
          else .broken 2
        | [] => .broken 2
      else .broken 1
    | [] => .broken 1
  else if 0xF0 ≤ first && first ≤ 0xF4 then
    match rest with
    | b :: r =>
      if secondOk first b then
        match r with
        | c :: r' =>
          if isTail c then
            match r' with
            | d :: _ =>
              if isTail d then
                .char (Char.ofNat
                  (((first.toNat % 8 * 64 + tailBits b) * 64 + tailBits c) * 64 + tailBits d)) 4
              else .broken 3
            | [] => .broken 3
          else .broken 2
        | [] => .broken 2
      else .broken 1
    | [] => .broken 1
  else .broken 1

/-- Walks the pieces; `skip` bytes of the current piece are still to be passed over. -/
def lossyFrom : Nat → Bytes → List Char
  | _, [] => []
  | skip + 1, _ :: rest => lossyFrom skip rest
  | 0, b :: rest =>
    match pieceAt b rest with
    | .char c n => c :: lossyFrom (n - 1) rest
    | .broken n => '\uFFFD' :: lossyFrom (n - 1) rest

/-- Reads bytes as text, every ill-formed sequence as one U+FFFD. -/
def lossy (b : Bytes) : String := String.ofList (lossyFrom 0 b)

/-- How many bytes stand before the first ill-formed sequence; the length if there is none. -/
def validPrefixFrom : Nat → Nat → Bytes → Nat
  | _, at_, [] => at_
  | skip + 1, at_, _ :: rest => validPrefixFrom skip (at_ + 1) rest
  | 0, at_, b :: rest =>
    match pieceAt b rest with
    | .char _ n => validPrefixFrom (n - 1) (at_ + 1) rest
    | .broken _ => at_

def validLength (b : Bytes) : Nat := validPrefixFrom 0 0 b

/-- The bytes of an ASCII text, for comparing with bytes read. -/
def asciiUpper (b : UInt8) : UInt8 := if 0x61 ≤ b && b ≤ 0x7A then b - 0x20 else b

def asciiLower (b : UInt8) : UInt8 := if 0x41 ≤ b && b ≤ 0x5A then b + 0x20 else b

/-- Equality up to the case of ASCII letters. -/
def eqIgnoringCase (a b : Bytes) : Bool := a.map asciiLower == b.map asciiLower

end Vetting.Text
