import Vetting.Proofs.PassedLeaves
import Vetting.Url.Extend

/-! # Segments that are added to an address

A segment is encoded so that decoding gives its bytes back and nothing in it ends a segment, a path
or an address. But not every text can be a segment: tabs and line ends are dropped, and `.` and `..`
say where to go and are no segments. Main statement: a plain text, one without these, is added as one
segment that denotes it. -/

namespace Vetting.Url

open Text (Bytes utf8 plainChars utf8_plainChars)

/-! ## Encoding and decoding -/

/-- A hexadecimal digit as a byte. -/
def hexByte (n : Nat) : UInt8 := UInt8.ofNat (hexUpper n).toNat

def written (set : Reserved) (b : UInt8) : Bytes :=
  if isEncoded set b then [0x25, hexByte (b.toNat / 16), hexByte (b.toNat % 16)] else [b]

theorem hexByte_digit {n : Nat} (h : n < 16) :
    Char.ofNat (hexByte n).toNat = hexUpper n ∧ hexValue? (hexByte n) = some n ∧
      0x21 ≤ hexByte n ∧ hexByte n ≤ 0x7E := by
  have hall : ∀ n : Fin 16, Char.ofNat (hexByte n).toNat = hexUpper n ∧
      hexValue? (hexByte n) = some n.val ∧ 0x21 ≤ hexByte n ∧ hexByte n ≤ 0x7E := by decide
  exact hall ⟨n, h⟩

theorem nibbles_lt (b : UInt8) : b.toNat / 16 < 16 ∧ b.toNat % 16 < 16 := by
  have hb : b.toNat < 256 := b.toNat_lt
  omega

theorem encode_eq_plainChars (set : Reserved) (b : Bytes) :
    encode set b = plainChars (b.flatMap (written set)) := by
  induction b with
  | nil => rfl
  | cons x b ih =>
    obtain ⟨hhigh, hlow⟩ := nibbles_lt x
    have hx : (if isEncoded set x then encodeByte x else [Char.ofNat x.toNat]) =
        plainChars (written set x) := by
      unfold written
      split
      · simp [plainChars, encodeByte, (hexByte_digit hhigh).1, (hexByte_digit hlow).1]
      · rfl
    rw [encode, List.flatMap_cons, ← encode, ih, hx]
    simp [plainChars]

/-- What is written needs no encoding, or is part of an escape. -/
theorem mem_written {set : Reserved} {b y : UInt8} (h : y ∈ written set b) :
    isEncoded set y = false ∨ y = 0x25 ∨ ∃ n < 16, y = hexByte n := by
  unfold written at h
  split at h
  · simp only [List.mem_cons, List.not_mem_nil, or_false] at h
    rcases h with rfl | rfl | rfl
    · exact .inr (.inl rfl)
    · exact .inr (.inr ⟨_, (nibbles_lt b).1, rfl⟩)
    · exact .inr (.inr ⟨_, (nibbles_lt b).2, rfl⟩)
  · next hplain =>
    obtain rfl := List.mem_singleton.mp h
    exact .inl (by simpa using hplain)

theorem isEncoded_of_mem {set : Reserved} {c : Char} (hc : c ∈ set) {b : UInt8}
    (hb : c.toNat = b.toNat) : isEncoded set b = true := by
  have hany : set.any (fun c => c.toNat = b.toNat) = true :=
    List.any_eq_true.mpr ⟨c, hc, by simpa using hb⟩
  simp [isEncoded, hany]

/-- Where the blank is encoded, all that is written is visible. -/
theorem visible_of_mem_written {set : Reserved} (hset : ' ' ∈ set) {b y : UInt8}
    (h : y ∈ written set b) : 0x21 ≤ y ∧ y ≤ 0x7E := by
  rcases mem_written h with hplain | rfl | ⟨n, hn, rfl⟩
  · have hne : y.toNat ≠ 0x20 := by
      intro heq
      rw [isEncoded_of_mem hset heq.symm] at hplain
      cases hplain
    simp only [isEncoded, Bool.or_eq_false_iff, decide_eq_false_iff_not, UInt8.lt_iff_toNat_lt,
      UInt8.le_iff_toNat_le] at hplain ⊢
    obtain ⟨⟨hlow, hhigh⟩, -⟩ := hplain
    simp only [UInt8.reduceToNat] at *
    omega
  · decide
  · exact (hexByte_digit hn).2.2

/-- A written byte is read back, where percent signs are encoded. -/
theorem decodeFrom_written {set : Reserved} (hset : '%' ∈ set) (b : UInt8) (rest : Bytes) :
    decodeFrom 0 (written set b ++ rest) = b :: decodeFrom 0 rest := by
  obtain ⟨hhigh, hlow⟩ := nibbles_lt b
  unfold written
  split
  · have hvalue : UInt8.ofNat (b.toNat / 16 * 16 + b.toNat % 16) = b := by
      rw [Nat.div_add_mod']
      exact UInt8.ofNat_toNat
    simp [decodeFrom, (hexByte_digit hhigh).2.1, (hexByte_digit hlow).2.1, hvalue]
  · next hplain =>
    have hne : b ≠ 0x25 := by
      rintro rfl
      exact hplain (isEncoded_of_mem hset rfl)
    simp [decodeFrom, hne]

/-- **Decoding gives back what was encoded.** -/
theorem decode_encode {set : Reserved} (hpercent : '%' ∈ set) (hblank : ' ' ∈ set) (b : Bytes) :
    decode (utf8 (String.ofList (encode set b))) = b := by
  have hascii : ∀ y ∈ b.flatMap (written set), y < 0x80 := by
    intro y hy
    obtain ⟨x, -, hy⟩ := List.mem_flatMap.mp hy
    exact UInt8.lt_of_le_of_lt (visible_of_mem_written hblank hy).2 (by decide)
  rw [encode_eq_plainChars, utf8_plainChars hascii, decode]
  clear hascii
  induction b with
  | nil => rfl
  | cons x b ih => rw [List.flatMap_cons, decodeFrom_written hpercent, ih]

/-! ## Texts as segments -/

/-- A text without tabs and line ends, and neither `.` nor `..`. -/
def IsPlain (s : String) : Prop := s ≠ "." ∧ s ≠ ".." ∧ ∀ c ∈ s.toList, isDropped c = false

instance (s : String) : Decidable (IsPlain s) :=
  decidable_of_iff (s ≠ "." ∧ s ≠ ".." ∧ s.toList.any isDropped = false)
    (by simp only [IsPlain, List.any_eq_false, Bool.not_eq_true])

/-- What is left of a text without tabs and line ends. -/
def stripped (s : String) : String := String.ofList (s.toList.filter fun c => !isDropped c)

/-- A segment that is one wherever it stands: nothing in it ends a segment, a path or an address,
and it is not taken for `.` or `..`, however these are written. -/
structure IsOneSegment (segment : List Char) : Prop where
  chars : ∀ c ∈ segment, '!' ≤ c ∧ c ≤ '~' ∧ c ≠ '/' ∧ c ≠ '\\' ∧ c ≠ '?' ∧ c ≠ '#'
  not_single : isSingle segment = false
  not_double : isDouble segment = false

theorem utf8_injective {s t : String} (h : utf8 s = utf8 t) : s = t := by
  have hs := Text.ofUtf8?_utf8 s
  rw [h, Text.ofUtf8?_utf8] at hs
  exact (Option.some.inj hs).symm

theorem lowerAscii_eq {c d : Char} (h : Host.lowerAscii c = d) :
    c = d ∨ c.toNat + 32 = d.toNat ∧ 65 ≤ c.toNat ∧ c.toNat ≤ 90 := by
  unfold Host.lowerAscii at h
  split at h
  · next hc =>
    have hlow : 65 ≤ c.toNat := hc.1
    have hhigh : c.toNat ≤ 90 := hc.2
    have hvalid : (c.toNat + 32).isValidChar := .inl (by omega)
    have hnumber := Text.toNat_ofNat hvalid
    rw [h] at hnumber
    exact .inr ⟨hnumber.symm, hlow, hhigh⟩
  · exact .inl h

theorem eq_of_lowerAscii {c d : Char} (hd : d.toNat < 97) (h : Host.lowerAscii c = d) : c = d := by
  rcases lowerAscii_eq h with heq | ⟨hnumber, hlow, -⟩
  · exact heq
  · omega

theorem eq_of_lowerAscii_e {c : Char} (h : Host.lowerAscii c = 'e') : c = 'e' ∨ c = 'E' := by
  rcases lowerAscii_eq h with heq | ⟨hnumber, -, -⟩
  · exact .inl heq
  · exact .inr (Char.toNat_inj.mp (by simp only [Char.reduceToNat] at hnumber ⊢; omega))

/-- A dot, as it is taken in lower case. -/
def dots : List String := [".", "%2e"]

/-- The ways a dot is written in a segment. -/
def dotForms : List (List Char) := [['.'], ['%', '2', 'e'], ['%', '2', 'E']]

theorem mem_dotForms {cs : List Char} {dot : String} (hdot : dot ∈ dots)
    (h : cs.map Host.lowerAscii = dot.toList) : cs ∈ dotForms := by
  simp only [dots, List.mem_cons, List.not_mem_nil, or_false] at hdot
  rcases hdot with rfl | rfl
  · obtain ⟨c, _, rfl, hc, hnil⟩ := List.map_eq_cons_iff.mp h
    obtain rfl := List.map_eq_nil_iff.mp hnil
    rw [eq_of_lowerAscii (by decide) hc]
    decide
  · obtain ⟨a, _, rfl, ha, htail⟩ := List.map_eq_cons_iff.mp h
    obtain ⟨b, _, rfl, hb, htail⟩ := List.map_eq_cons_iff.mp htail
    obtain ⟨c, _, rfl, hc, hnil⟩ := List.map_eq_cons_iff.mp htail
    obtain rfl := List.map_eq_nil_iff.mp hnil
    rw [eq_of_lowerAscii (by decide) ha, eq_of_lowerAscii (by decide) hb]
    rcases eq_of_lowerAscii_e hc with rfl | rfl <;> decide

theorem decode_of_isSingle {cs : List Char} (h : isSingle cs = true) :
    decode (utf8 (String.ofList cs)) = utf8 "." := by
  have hforms : ∀ f ∈ dotForms, decode (utf8 (String.ofList f)) = utf8 "." := by decide
  obtain ⟨dot, hdot, heq⟩ : ∃ dot ∈ dots, String.ofList (cs.map Host.lowerAscii) = dot :=
    ⟨_, by simpa [isSingle, dots] using h, rfl⟩
  exact hforms cs (mem_dotForms hdot (by rw [← heq, String.toList_ofList]))

theorem decode_of_isDouble {cs : List Char} (h : isDouble cs = true) :
    decode (utf8 (String.ofList cs)) = utf8 ".." := by
  have hforms : ∀ f ∈ dotForms, ∀ g ∈ dotForms,
      decode (utf8 (String.ofList (f ++ g))) = utf8 ".." := by decide
  obtain ⟨first, hfirst, second, hsecond, heq⟩ : ∃ first ∈ dots, ∃ second ∈ dots,
      String.ofList (cs.map Host.lowerAscii) = first ++ second := by
    simpa [isDouble, dots, or_assoc] using h
  have hlist : cs.map Host.lowerAscii = first.toList ++ second.toList := by
    rw [← String.toList_append, ← heq, String.toList_ofList]
  obtain ⟨f, g, rfl, hf, hg⟩ := List.map_eq_append_iff.mp hlist
  exact hforms f (mem_dotForms hfirst hf) g (mem_dotForms hsecond hg)

/-! ## A segment as it is encoded -/

/-- What is written in a segment is visible, and ends neither it nor the path. -/
theorem char_of_written : ∀ n : Fin 256,
    isEncoded Reserved.inSpecialSegment (UInt8.ofNat n) = false ∨ n.val = 0x25 ∨
        (∃ d : Fin 16, (hexByte d).toNat = n) →
      '!' ≤ Char.ofNat n ∧ Char.ofNat n ≤ '~' ∧ Char.ofNat n ≠ '/' ∧ Char.ofNat n ≠ '\\' ∧
        Char.ofNat n ≠ '?' ∧ Char.ofNat n ≠ '#' := by
  decide +kernel

theorem of_mem_encode {b : Bytes} {c : Char} (h : c ∈ encode Reserved.inSpecialSegment b) :
    '!' ≤ c ∧ c ≤ '~' ∧ c ≠ '/' ∧ c ≠ '\\' ∧ c ≠ '?' ∧ c ≠ '#' := by
  rw [encode_eq_plainChars] at h
  obtain ⟨y, hy, rfl⟩ := List.mem_map.mp h
  obtain ⟨x, -, hy⟩ := List.mem_flatMap.mp hy
  refine char_of_written ⟨y.toNat, y.toNat_lt⟩ ?_
  rcases mem_written hy with hplain | rfl | ⟨n, hn, rfl⟩
  · exact .inl (by simpa using hplain)
  · exact .inr (.inl rfl)
  · exact .inr (.inr ⟨⟨n, hn⟩, rfl⟩)

/-- A segment denotes the text that is left of what it was made from. -/
theorem decode_encodeSegment (s : String) :
    decode (utf8 (String.ofList (encodeSegment true s))) = utf8 (stripped s) :=
  decode_encode (by decide) (by decide) _

theorem stripped_of_plain {s : String} (h : ∀ c ∈ s.toList, isDropped c = false) :
    stripped s = s := by
  have hfilter : s.toList.filter (fun c => !isDropped c) = s.toList :=
    List.filter_eq_self.mpr fun c hc => by simp [h c hc]
  rw [stripped, hfilter, String.ofList_toList]

theorem isPlain_stripped {s : String} (h : stripped s ≠ "." ∧ stripped s ≠ "..") :
    IsPlain (stripped s) := by
  refine ⟨h.1, h.2, fun c hc => ?_⟩
  rw [stripped, String.toList_ofList] at hc
  simpa using (List.mem_filter.mp hc).2

/-- **A plain text makes one segment, whatever it is made of.** -/
theorem isOneSegment_encodeSegment {s : String} (h : IsPlain s) :
    IsOneSegment (encodeSegment true s) := by
  obtain ⟨hdot, hdots, hkept⟩ := h
  have hdecode := decode_encodeSegment s
  rw [stripped_of_plain hkept] at hdecode
  refine ⟨fun c hc => of_mem_encode hc, Bool.eq_false_iff.mpr fun hsingle => ?_,
    Bool.eq_false_iff.mpr fun hdouble => ?_⟩
  · rw [decode_of_isSingle hsingle] at hdecode
    exact hdot (utf8_injective hdecode).symm
  · rw [decode_of_isDouble hdouble] at hdecode
    exact hdots (utf8_injective hdecode).symm

/-! ## The path with a segment added -/

/-- The segments that one is added after: a path that is a slash only has none. -/
def trunk (ss : List (List Char)) : List (List Char) := if ss = [[]] then [] else ss

/-- The segments of a base that others are added after: without an empty one at the end. -/
def stem (ss : List (List Char)) : List (List Char) := trunk (popEmpty ss)

theorem trunk_of_length {ss : List (List Char)} (h : 2 ≤ ss.length) : trunk ss = ss := by
  refine if_neg ?_
  rintro rfl
  simp at h

/-- An empty segment at the end of a base is left out. Two slashes leave a slash, which is no
segment. -/
theorem stem_eq (ss : List (List Char)) :
    stem ss = if ss = [[], []] then []
      else if ss.getLast? = some [] then ss.dropLast else ss := by
  by_cases h : ss = [[], []]
  · rw [if_pos h, h]
    rfl
  rw [if_neg h]
  cases hlast : ss.getLast? with
  | none =>
    obtain rfl := List.getLast?_eq_none_iff.mp hlast
    rfl
  | some x =>
    obtain ⟨ys, rfl⟩ := List.getLast?_eq_some_iff.mp hlast
    by_cases hx : x = []
    · subst hx
      rw [if_pos rfl, List.dropLast_concat]
      by_cases hys : ys = []
      · rw [hys]
        rfl
      · have hpos : 0 < ys.length := List.length_pos_iff.mpr hys
        have hpop : popEmpty (ys ++ [[]]) = ys := by simp [popEmpty, hpos]
        have hslash : ys ≠ [[]] := fun heq => h (by rw [heq]; rfl)
        rw [stem, hpop, trunk, if_neg hslash]
    · have hpop : popEmpty (ys ++ [x]) = ys ++ [x] := by simp [popEmpty, hx]
      have hslash : ys ++ [x] ≠ [[]] := by
        intro heq
        rw [heq] at hlast
        exact hx (Option.some.inj hlast).symm
      rw [stem, hpop, trunk, if_neg hslash, if_neg (by simpa using hx)]

theorem addSegment_of_plain {s : String} (h : IsPlain s) (ss : List (List Char)) :
    addSegment true ss s = trunk ss ++ [encodeSegment true s] := by
  have hone := isOneSegment_encodeSegment h
  have hnodot : ¬ (s = "." || s = "..") = true := by simp [h.1, h.2.1]
  rw [addSegment, if_neg hnodot]
  dsimp only
  split
  · next heq => exact absurd (heq ▸ hone.not_single) (by decide)
  · next heq => exact absurd (heq ▸ hone.not_double) (by decide)
  · rfl

theorem addSegment_dot (ss : List (List Char)) {s : String} (h : s = "." ∨ s = "..") :
    addSegment true ss s = ss := by
  rw [addSegment, if_pos (by simpa using h)]

/-- Dropped characters make no difference, unless a dot segment is left without them. -/
theorem addSegment_stripped {s : String} (hs : s ≠ "." ∧ s ≠ "..")
    (h : stripped s ≠ "." ∧ stripped s ≠ "..") (ss : List (List Char)) :
    addSegment true ss s = addSegment true ss (stripped s) := by
  have hkept : ((stripped s).toList.filter fun c => !isDropped c) =
      s.toList.filter fun c => !isDropped c := by simp [stripped]
  simp only [addSegment, hs.1, hs.2, h.1, h.2, encodeSegment, hkept]

/-- A dot that is left without the dropped characters ends the path in an empty segment. -/
theorem addSegment_of_stripped_dot {s : String} (hs : s ≠ "." ∧ s ≠ "..") (h : stripped s = ".")
    (ss : List (List Char)) : addSegment true ss s = trunk ss ++ [[]] := by
  have hsegment : encodeSegment true s = ['.'] := by
    rw [show encodeSegment true s = encode Reserved.inSpecialSegment (utf8 (stripped s)) from rfl, h]
    decide
  simp [addSegment, hs.1, hs.2, hsegment, trunk]

/-- Two dots that are left without the dropped characters empty the last segment. -/
theorem addSegment_of_stripped_dots {s : String} (hs : s ≠ "." ∧ s ≠ "..") (h : stripped s = "..")
    (ss : List (List Char)) : addSegment true ss s = (trunk ss).dropLast ++ [[]] := by
  have hsegment : encodeSegment true s = ['.', '.'] := by
    rw [show encodeSegment true s = encode Reserved.inSpecialSegment (utf8 (stripped s)) from rfl, h]
    decide
  simp [addSegment, hs.1, hs.2, hsegment, trunk]

/-- What a segment that is added does to a path that has two already. -/
theorem addSegment_cases {ss : List (List Char)} (h : 2 ≤ ss.length) (s : String) :
    addSegment true ss s = ss ∨ addSegment true ss s = ss ++ [encodeSegment true s] ∨
      addSegment true ss s = ss ++ [[]] ∨ addSegment true ss s = ss.dropLast ++ [[]] := by
  have htrunk : (if ss = [[]] then [] else ss) = ss := trunk_of_length h
  rw [addSegment, htrunk]
  dsimp only
  split
  · exact .inl rfl
  · split
    · exact .inr (.inr (.inl rfl))
    · exact .inr (.inr (.inr rfl))
    · exact .inr (.inl rfl)

/-- What stands further to the front does not matter. -/
theorem addSegment_append (ss : List (List Char)) {ts : List (List Char)} (h : 2 ≤ ts.length)
    (s : String) : addSegment true (ss ++ ts) s = ss ++ addSegment true ts s := by
  have hne : ts ≠ [] := by
    rintro rfl
    simp at h
  have hlong : 2 ≤ (ss ++ ts).length := by simp; omega
  have htrunk : (if ts = [[]] then [] else ts) = ts := trunk_of_length h
  have htrunk' : (if ss ++ ts = [[]] then [] else ss ++ ts) = ss ++ ts := trunk_of_length hlong
  simp only [addSegment, htrunk, htrunk']
  split
  · rfl
  · split
    · rw [List.append_assoc]
    · rw [List.dropLast_append_of_ne_nil hne, List.append_assoc]
    · rw [List.append_assoc]

theorem length_addSegment {ss : List (List Char)} (h : 2 ≤ ss.length) (s : String) :
    ss.length ≤ (addSegment true ss s).length := by
  rcases addSegment_cases h s with heq | heq | heq | heq <;> rw [heq]
  all_goals simp
  omega

/-- A segment that is there stays, or is emptied. -/
theorem kept_addSegment {ss : List (List Char)} (h : 2 ≤ ss.length) (s : String) {i : Nat}
    {x : List Char} (hi : ss[i]? = some x) :
    (addSegment true ss s)[i]? = some x ∨ (addSegment true ss s)[i]? = some [] := by
  have hlt : i < ss.length := (List.getElem?_eq_some_iff.mp hi).1
  rcases addSegment_cases h s with heq | heq | heq | heq <;> rw [heq]
  · exact .inl hi
  · exact .inl (by rw [List.getElem?_append_left hlt, hi])
  · exact .inl (by rw [List.getElem?_append_left hlt, hi])
  · by_cases hlast : i < ss.dropLast.length
    · rw [List.getElem?_append_left hlast, List.getElem?_dropLast, if_pos (by simpa using hlast)]
      exact .inl hi
    · have hend : i = ss.dropLast.length := by
        rw [List.length_dropLast] at *
        omega
      rw [hend, List.getElem?_concat_length]
      exact .inr rfl

theorem mem_addSegment {ss : List (List Char)} (h : 2 ≤ ss.length) {s : String} {x : List Char}
    (hx : x ∈ addSegment true ss s) : x ∈ ss ∨ x = encodeSegment true s ∨ x = [] := by
  rcases addSegment_cases h s with heq | heq | heq | heq <;> rw [heq] at hx
  · exact .inl hx
  · exact (List.mem_append.mp hx).imp id fun hlast => .inl (List.mem_singleton.mp hlast)
  · exact (List.mem_append.mp hx).imp id fun hlast => .inr (List.mem_singleton.mp hlast)
  · exact (List.mem_append.mp hx).imp (List.dropLast_subset ss ·) fun hlast =>
      .inr (List.mem_singleton.mp hlast)

/-- No segment has a slash in it, if none had before one was added. -/
theorem whole_addSegment {ss : List (List Char)} (h : 2 ≤ ss.length)
    (hss : ∀ x ∈ ss, '/' ∉ x) (s : String) : ∀ x ∈ addSegment true ss s, '/' ∉ x := by
  intro x hx
  rcases mem_addSegment h hx with hold | rfl | rfl
  · exact hss x hold
  · exact fun hmem => (of_mem_encode hmem).2.2.1 rfl
  · exact List.not_mem_nil

/-! ## Several segments -/

def addAll (ss : List (List Char)) (xs : List String) : List (List Char) :=
  xs.foldl (addSegment true) ss

theorem addAll_append (ss : List (List Char)) {ts : List (List Char)} (h : 2 ≤ ts.length)
    (xs : List String) : addAll (ss ++ ts) xs = ss ++ addAll ts xs := by
  induction xs generalizing ts with
  | nil => rfl
  | cons x xs ih =>
    have hmore := Nat.le_trans h (length_addSegment h x)
    rw [addAll, List.foldl_cons, addSegment_append ss h, ← addAll, ih hmore]
    rfl

theorem kept_addAll {ss : List (List Char)} (h : 2 ≤ ss.length) (xs : List String) {i : Nat}
    {x : List Char} (hi : ss[i]? = some x ∨ ss[i]? = some []) :
    (addAll ss xs)[i]? = some x ∨ (addAll ss xs)[i]? = some [] := by
  induction xs generalizing ss with
  | nil => exact hi
  | cons y xs ih =>
    refine ih (Nat.le_trans h (length_addSegment h y)) ?_
    rcases hi with hi | hi
    · exact kept_addSegment h y hi
    · exact .inr ((kept_addSegment h y hi).elim id id)

theorem whole_addAll {ss : List (List Char)} (h : 2 ≤ ss.length) (hss : ∀ x ∈ ss, '/' ∉ x)
    (xs : List String) : ∀ x ∈ addAll ss xs, '/' ∉ x := by
  induction xs generalizing ss with
  | nil => exact hss
  | cons y xs ih =>
    exact ih (Nat.le_trans h (length_addSegment h y)) (whole_addSegment h hss y)

theorem addAll_of_plain {ss : List (List Char)} (h : 2 ≤ ss.length) {xs : List String}
    (hxs : ∀ x ∈ xs, IsPlain x) : addAll ss xs = ss ++ xs.map (encodeSegment true) := by
  induction xs generalizing ss with
  | nil => simp [addAll]
  | cons x xs ih =>
    have hx : addSegment true ss x = ss ++ [encodeSegment true x] := by
      rw [addSegment_of_plain (hxs x List.mem_cons_self), trunk_of_length h]
    rw [addAll, List.foldl_cons, hx, ← addAll,
      ih (by simp; omega) fun y hy => hxs y (List.mem_cons_of_mem _ hy)]
    simp

/-- Below a base whose path has segments, the first two of plain text, the rest stands after
these. -/
theorem below?_of_plain {u : Url} {ss : List (List Char)} (hspecial : isSpecial u.scheme = true)
    (hpath : u.path = .segments ss) {x y : String} (hx : IsPlain x) (hy : IsPlain y)
    (hxe : encodeSegment true x ≠ []) (xs : List String) :
    u.below? (x :: y :: xs) = some { u with
      path := .segments (stem ss ++ addAll [encodeSegment true x, encodeSegment true y] xs) } := by
  have hfirst : trunk (stem ss ++ [encodeSegment true x]) = stem ss ++ [encodeSegment true x] := by
    refine if_neg fun heq => ?_
    have heq' : stem ss ++ [encodeSegment true x] = [] ++ [[]] := heq
    obtain ⟨-, hlast⟩ := List.append_inj' heq' rfl
    exact hxe (List.singleton_inj.mp hlast)
  have htwo : (x :: y :: xs).foldl (addSegment true) (popEmpty ss) =
      addAll (stem ss ++ [encodeSegment true x, encodeSegment true y]) xs := by
    rw [List.foldl_cons, List.foldl_cons, addSegment_of_plain hx, ← stem, addSegment_of_plain hy,
      hfirst, List.append_assoc]
    rfl
  rw [below?, hpath]
  dsimp only
  rw [hspecial, htwo, addAll_append (stem ss) (by simp)]

/-! ## The written path -/

theorem segments_injective {ss ts : List (List Char)} (hss : ∀ x ∈ ss, '/' ∉ x)
    (hts : ∀ x ∈ ts, '/' ∉ x) (h : (Path.segments ss).render = (Path.segments ts).render) :
    ss = ts := by
  have hfront (x : List Char) (rest : List (List Char)) (hx : '/' ∉ x) :
      (x ++ rest.flatMap ('/' :: ·)).takeWhile (· ≠ '/') = x := by
    rw [List.takeWhile_append_of_pos fun c hc => by simp; rintro rfl; exact hx hc]
    cases rest <;> simp
  simp only [Path.render] at h
  induction ss generalizing ts with
  | nil =>
    cases ts with
    | nil => rfl
    | cons t ts => simp at h
  | cons s ss ih =>
    cases ts with
    | nil => simp at h
    | cons t ts =>
      simp only [List.flatMap_cons, List.cons_append, List.cons.injEq, true_and] at h
      have heq : s = t := by
        rw [← hfront s ss (hss s List.mem_cons_self), h, hfront t ts (hts t List.mem_cons_self)]
      subst heq
      rw [ih (fun x hx => hss x (List.mem_cons_of_mem _ hx))
        (fun x hx => hts x (List.mem_cons_of_mem _ hx)) (List.append_cancel_left h)]

/-! ## Addresses of services -/

theorem pathAfter_segments (special : Bool) (cs : List Char) :
    ∃ ss, pathAfter special cs = .segments ss := by
  unfold pathAfter
  split
  · exact ⟨_, rfl⟩
  · exact ⟨_, rfl⟩

/-- The path of an address with a special scheme has segments. -/
theorem readBody_segments {scheme cs : List Char} {authority : Option (List Char)} {path : Path}
    (hspecial : isSpecial scheme = true) (h : readBody scheme cs = .ok (authority, path)) :
    ∃ ss, path = .segments ss := by
  have hafter {a : Option (List Char)} {special : Bool} {rest : List Char}
      (h : Except.ok (ε := Fault) (a, pathAfter special rest) = .ok (authority, path)) :
      ∃ ss, path = .segments ss := by
    obtain ⟨-, rfl⟩ := Prod.mk.inj (Except.ok.inj h)
    exact pathAfter_segments special rest
  simp only [readBody, hspecial] at h
  split at h
  · split at h
    · split at h
      · split at h <;> obtain ⟨host, -, h⟩ := ok_of_bind h <;> exact hafter h
      · exact hafter h
    · exact hafter h
  · obtain ⟨host, -, h⟩ := ok_of_bind h
    exact hafter h

theorem parse_segments {text : String} {u : Url} (h : parse text = .ok u)
    (hspecial : isSpecial u.scheme = true) : ∃ ss, u.path = .segments ss := by
  unfold parse at h
  obtain ⟨⟨scheme, rest⟩, -, h⟩ := ok_of_bind h
  dsimp only at h
  obtain ⟨⟨authority, path⟩, hbody, h⟩ := ok_of_bind h
  cases h
  exact readBody_segments hspecial hbody

end Vetting.Url
