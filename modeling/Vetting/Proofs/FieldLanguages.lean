import Mathlib.Computability.Language
import Vetting.Product.Submission

/-! # The languages of the fields

Each field has a language, the values that it takes: texts that are not empty, numbers of so many
digits, and phone numbers. `Field.language` says which they are, by concatenation, union and power
of languages, and no reader is needed to say it. A submission is accepted just if each of its
values is of the language of its field, and else the complaint is about the first that is not. -/

namespace Vetting

namespace Text

/-- One of the characters of a text. -/
def oneOf (s : String) : Language Char := {w | ∃ c ∈ s.toList, w = [c]}

def only (s : String) : Language Char := {s.toList}

def digit : Language Char := oneOf "0123456789"

def digitsBetween (lo hi : Nat) : Language Char := {w | ∃ n, lo ≤ n ∧ n ≤ hi ∧ w ∈ digit ^ n}

theorem mem_oneOf {s : String} {w : List Char} : w ∈ oneOf s ↔ ∃ c ∈ s.toList, w = [c] := Iff.rfl

theorem mem_only {s : String} {w : List Char} : w ∈ only s ↔ w = s.toList := Iff.rfl

/-- A character between two others is among those that are numbered in between. -/
theorem mem_of_between {c : Char} {cs : List Char} (lo n : Nat)
    (hcs : ∀ k < n, Char.ofNat (lo + k) ∈ cs) (hlo : lo ≤ c.toNat) (hhi : c.toNat < lo + n) :
    c ∈ cs := by
  have hc := hcs (c.toNat - lo) (by omega)
  rwa [Nat.add_sub_cancel' hlo, Char.ofNat_toNat] at hc

theorem isDigit_iff_mem {c : Char} : isDigit c = true ↔ c ∈ "0123456789".toList := by
  constructor
  · intro h
    have hbounds : '0' ≤ c ∧ c ≤ '9' := by
      by_contra hnot
      simp [isDigit, digit?, hnot] at h
    exact mem_of_between 48 10 (by decide) hbounds.1 (Nat.lt_succ_of_le hbounds.2)
  · have hall : "0123456789".toList.all isDigit = true := by decide
    exact List.all_eq_true.mp hall c

theorem mem_digit_pow {n : Nat} {w : List Char} :
    w ∈ digit ^ n ↔ w.length = n ∧ w.all isDigit = true := by
  induction n generalizing w with
  | zero => simp +contextual
  | succ n ih =>
    simp only [pow_succ', Language.mem_mul, ih]
    constructor
    · rintro ⟨_, ⟨c, hc, rfl⟩, w, ⟨rfl, hw⟩, rfl⟩
      simp [isDigit_iff_mem.mpr hc, hw]
    · rintro ⟨hlen, hall⟩
      cases w with
      | nil => cases hlen
      | cons c w =>
        rw [List.all_cons, Bool.and_eq_true] at hall
        exact ⟨[c], ⟨c, isDigit_iff_mem.mp hall.1, rfl⟩, w, ⟨Nat.succ.inj hlen, hall.2⟩, rfl⟩

theorem mem_digitsBetween {lo hi : Nat} {w : List Char} :
    w ∈ digitsBetween lo hi ↔ lo ≤ w.length ∧ w.length ≤ hi ∧ w.all isDigit = true := by
  constructor
  · rintro ⟨n, hlo, hhi, hw⟩
    obtain ⟨rfl, hall⟩ := mem_digit_pow.mp hw
    exact ⟨hlo, hhi, hall⟩
  · rintro ⟨hlo, hhi, hall⟩
    exact ⟨w.length, hlo, hhi, mem_digit_pow.mpr ⟨rfl, hall⟩⟩

end Text

namespace Field

open Text (digit digitsBetween oneOf only)

/-- An eight, a digit other than zero, and 6 to 11 digits. -/
def subscriberNumbers : Language Char :=
  only "8" * oneOf "123456789" * digitsBetween 6 11

/-- A subscriber's number behind the country's code, with or without a plus, or behind a zero. -/
def phoneNumbers : Language Char := (only "+62" + only "62" + only "0") * subscriberNumbers

/-- The values of the field. -/
def language : Field → Language Char
  | .name => {w | w ≠ []}
  | .loanNo => {w | w ≠ []}
  | .nik => digit ^ 16
  | .npwp => digit ^ 15 + digit ^ 16
  | .npwpOrNik => digit ^ 15 + digit ^ 16
  | .phoneNumber => phoneNumbers

theorem isDigits_iff {n : Nat} {w : List Char} : isDigits n w = true ↔ w ∈ digit ^ n := by
  rw [Text.mem_digit_pow, isDigits, Bool.and_eq_true, decide_eq_true_iff]

theorem mem_subscriberNumbers {w : List Char} :
    w ∈ subscriberNumbers ↔ ∃ d ∈ "123456789".toList, ∃ rest : List Char,
      6 ≤ rest.length ∧ rest.length ≤ 11 ∧ rest.all Text.isDigit = true ∧ w = '8' :: d :: rest := by
  simp only [subscriberNumbers, Language.mem_mul, Text.mem_digitsBetween, Text.mem_oneOf,
    Text.mem_only]
  constructor
  · rintro ⟨_, ⟨_, rfl, _, ⟨d, hd, rfl⟩, rfl⟩, rest, ⟨hlo, hhi, hall⟩, rfl⟩
    exact ⟨d, hd, rest, hlo, hhi, hall, rfl⟩
  · rintro ⟨d, hd, rest, hlo, hhi, hall, rfl⟩
    exact ⟨_, ⟨_, rfl, _, ⟨d, hd, rfl⟩, rfl⟩, rest, ⟨hlo, hhi, hall⟩, rfl⟩

theorem isSubscriberNumber_iff {w : List Char} :
    isSubscriberNumber w = true ↔ w ∈ subscriberNumbers := by
  have hfirst {d : Char} : '1' ≤ d ∧ d ≤ '9' ↔ d ∈ "123456789".toList := by
    constructor
    · rintro ⟨hlo, hhi⟩
      exact Text.mem_of_between 49 9 (by decide) hlo (Nat.lt_succ_of_le hhi)
    · have hall : "123456789".toList.all (fun d => '1' ≤ d ∧ d ≤ '9') = true := by decide
      intro hd
      simpa using List.all_eq_true.mp hall d hd
  rw [mem_subscriberNumbers]
  unfold isSubscriberNumber
  split
  · next d rest =>
    simp only [Bool.and_eq_true, decide_eq_true_eq]
    constructor
    · rintro ⟨⟨⟨hd, hlo⟩, hhi⟩, hall⟩
      exact ⟨d, hfirst.mp hd, rest, hlo, hhi, hall, rfl⟩
    · rintro ⟨_, hd, _, hlo, hhi, hall, heq⟩
      cases heq
      exact ⟨⟨⟨hfirst.mpr hd, hlo⟩, hhi⟩, hall⟩
  · next hnot =>
    constructor
    · nofun
    · rintro ⟨d, _, rest, _, _, _, rfl⟩
      exact absurd rfl (hnot d rest)

theorem isPhoneNumber_iff {w : List Char} : isPhoneNumber w = true ↔ w ∈ phoneNumbers := by
  have hmem : w ∈ phoneNumbers ↔ ∃ rest ∈ subscriberNumbers,
      w = '+' :: '6' :: '2' :: rest ∨ w = '6' :: '2' :: rest ∨ w = '0' :: rest := by
    simp only [phoneNumbers, Language.mem_mul, Language.mem_add, Text.mem_only]
    constructor
    · rintro ⟨_, (rfl | rfl) | rfl, rest, hrest, rfl⟩
      · exact ⟨rest, hrest, .inl rfl⟩
      · exact ⟨rest, hrest, .inr (.inl rfl)⟩
      · exact ⟨rest, hrest, .inr (.inr rfl)⟩
    · rintro ⟨rest, hrest, rfl | rfl | rfl⟩
      · exact ⟨_, .inl (.inl rfl), rest, hrest, rfl⟩
      · exact ⟨_, .inl (.inr rfl), rest, hrest, rfl⟩
      · exact ⟨_, .inr rfl, rest, hrest, rfl⟩
  rw [hmem]
  unfold isPhoneNumber
  split
  · rw [isSubscriberNumber_iff]; simp
  · rw [isSubscriberNumber_iff]; simp
  · rw [isSubscriberNumber_iff]; simp
  · next h₁ h₂ h₃ =>
    constructor
    · nofun
    · rintro ⟨rest, _, rfl | rfl | rfl⟩
      · exact absurd rfl (h₁ rest)
      · exact absurd rfl (h₂ rest)
      · exact absurd rfl (h₃ rest)

/-- What is said of a value that is not of the field's language, though it is not empty. -/
def rule : Field → String
  | .nik => "must be 16 digits"
  | .npwp => "must be 15 or 16 digits"
  | .npwpOrNik => "must be 15 or 16 digits"
  | .name => "is not valid"
  | .loanNo => "is not valid"
  | .phoneNumber => "is not valid"

theorem mem_language {f : Field} {w : List Char} :
    w ∈ f.language ↔ w ≠ [] ∧ f.accepts w = true := by
  -- The rules for digits and phone numbers admit no empty text, which is complained of apart.
  have hpow {n : Nat} (h : w ∈ digit ^ (n + 1)) : w ≠ [] := by
    rintro rfl
    cases (Text.mem_digit_pow.mp h).1
  cases f with
  | name | loanNo => exact (and_iff_left rfl).symm
  | nik =>
    rw [accepts, isDigits_iff]
    exact ⟨fun h => ⟨hpow h, h⟩, And.right⟩
  | npwp | npwpOrNik =>
    rw [accepts, Bool.or_eq_true, isDigits_iff, isDigits_iff]
    exact ⟨fun h => ⟨h.elim hpow hpow, h⟩, And.right⟩
  | phoneNumber =>
    rw [accepts, isPhoneNumber_iff]
    refine ⟨fun h => ⟨?_, h⟩, And.right⟩
    rintro rfl
    cases isPhoneNumber_iff.mpr h

theorem check_eq (f : Field) (v : String) : f.check v =
    if v = "" then some (.missing f) else if f.accepts v.toList then none
      else some (.malformed f) := by
  simp only [check, String.isEmpty_iff]

/-- **A field accepts the values of its language.** -/
theorem check_eq_none_iff {f : Field} {v : String} :
    f.check v = none ↔ v.toList ∈ f.language := by
  rw [mem_language, check_eq, ne_eq, String.toList_eq_nil_iff]
  by_cases hv : v = ""
  · simp [hv]
  · by_cases ha : f.accepts v.toList = true <;> simp [hv, ha]

/-- A field complains of other values in words of its own. -/
theorem message_of_check {f : Field} {v : String} {c : Complaint} (h : f.check v = some c) :
    c.message = f.key ++ " " ++ if v = "" then "is required" else f.rule := by
  rw [check_eq] at h
  split at h
  · next hv =>
    cases h
    rw [if_pos hv]
    cases f <;> rfl
  · next hv =>
    split at h
    · cases h
    · cases h
      rw [if_neg hv]
      cases f <;> rfl

end Field

namespace Submission

/-- A row's value in column `i` is what the cell there, if there is one, has between the blanks at
its ends. -/
def ValueAt (row : List String) (i : Nat) (v : String) : Prop :=
  Text.IsTrimmed (row[i]?.getD "").toList v.toList

/-- The row's value in column `i` is not of the language of the column's field. -/
structure Offends (p : Product) (row : List String) (i : Nat) (f : Field) (v : String) : Prop where
  field : p.fields[i]? = some f
  value : ValueAt row i v
  stray : v.toList ∉ f.language

theorem valueAt_iff {row : List String} {i : Nat} {v : String} :
    ValueAt row i v ↔ Text.trim (row[i]?.getD "") = v :=
  Text.trim_eq_iff.symm

theorem existsUnique_valueAt (row : List String) (i : Nat) : ∃! v, ValueAt row i v := by
  simp only [valueAt_iff, existsUnique_eq']

theorem check_eq_findSome? (s : Submission) :
    s.check = s.entries.findSome? fun e => e.1.check e.2 := rfl

theorem getElem?_entries_ofRow {p : Product} {row : List String} {i : Nat} {e : Field × String} :
    (ofRow p row).entries[i]? = some e ↔ p.fields[i]? = some e.1 ∧ ValueAt row i e.2 := by
  rw [entries, List.getElem?_zip_eq_some, ofRow, List.getElem?_map, List.getElem?_zipIdx]
  refine and_congr_right fun hf => ?_
  simp [hf, valueAt_iff]

/-- The first of a list that `f` finds something of, by its place. -/
theorem findSome?_eq_some_iff_getElem? {α β : Type} {l : List α} {f : α → Option β} {b : β} :
    l.findSome? f = some b ↔ ∃ (i : Nat) (a : α), l[i]? = some a ∧ f a = some b ∧
      ∀ j < i, ∀ x : α, l[j]? = some x → f x = none := by
  rw [List.findSome?_eq_some_iff]
  constructor
  · rintro ⟨l₁, a, l₂, rfl, ha, hbefore⟩
    refine ⟨l₁.length, a, by simp, ha, ?_⟩
    intro j hj x hx
    rw [List.getElem?_append_left hj] at hx
    exact hbefore x (List.mem_of_getElem? hx)
  · rintro ⟨i, a, hi, ha, hbefore⟩
    obtain ⟨hlt, rfl⟩ := List.getElem?_eq_some_iff.mp hi
    refine ⟨l.take i, l[i], l.drop (i + 1), by simp, ha, ?_⟩
    intro x hx
    obtain ⟨j, hj⟩ := List.mem_iff_getElem?.mp hx
    rw [List.getElem?_take] at hj
    split at hj
    · next hlt => exact hbefore j hlt x hj
    · cases hj

/-- **A row is accepted just if all its values are of their fields' languages**, and else the
complaint is about the first column that has a value of none. Each column has one value. -/
theorem accepted_in_languages (p : Product) (row : List String) :
    (∀ i, ∃! v, ValueAt row i v) ∧
    ((ofRow p row).check = none ↔
      ∀ i f v, p.fields[i]? = some f → ValueAt row i v → v.toList ∈ f.language) ∧
    ∀ m, (ofRow p row).check.map Complaint.message = some m ↔
      ∃ i f v, Offends p row i f v ∧ (∀ j < i, ∀ g w, ¬ Offends p row j g w) ∧
        m = f.key ++ " " ++ if v = "" then "is required" else f.rule := by
  refine ⟨existsUnique_valueAt row, ?_, ?_⟩
  · rw [check_eq_findSome?, List.findSome?_eq_none_iff]
    constructor
    · intro h i f v hf hv
      have he : (f, v) ∈ (ofRow p row).entries :=
        List.mem_of_getElem? (getElem?_entries_ofRow.mpr ⟨hf, hv⟩)
      have hnone : f.check v = none := h (f, v) he
      exact Field.check_eq_none_iff.mp hnone
    · rintro h ⟨f, v⟩ he
      obtain ⟨i, hi⟩ := List.mem_iff_getElem?.mp he
      obtain ⟨hf, hv⟩ := getElem?_entries_ofRow.mp hi
      exact Field.check_eq_none_iff.mpr (h i f v hf hv)
  · intro m
    simp only [Option.map_eq_some_iff, check_eq_findSome?, findSome?_eq_some_iff_getElem?]
    constructor
    · rintro ⟨c, ⟨i, ⟨f, v⟩, hi, hcheck, hbefore⟩, rfl⟩
      obtain ⟨hf, hv⟩ := getElem?_entries_ofRow.mp hi
      refine ⟨i, f, v, ⟨hf, hv, ?_⟩, ?_, Field.message_of_check hcheck⟩
      · rw [← Field.check_eq_none_iff, hcheck]
        nofun
      · intro j hj g w hoff
        have hnone : g.check w = none :=
          hbefore j hj (g, w) (getElem?_entries_ofRow.mpr ⟨hoff.field, hoff.value⟩)
        exact hoff.stray (Field.check_eq_none_iff.mp hnone)
    · rintro ⟨i, f, v, hoff, hbefore, rfl⟩
      obtain ⟨c, hc⟩ : ∃ c, f.check v = some c :=
        Option.ne_none_iff_exists'.mp (mt Field.check_eq_none_iff.mp hoff.stray)
      refine ⟨c, ⟨i, (f, v), getElem?_entries_ofRow.mpr ⟨hoff.field, hoff.value⟩, hc, ?_⟩,
        Field.message_of_check hc⟩
      rintro j hj ⟨g, w⟩ hx
      obtain ⟨hg, hw⟩ := getElem?_entries_ofRow.mp hx
      by_contra hcheck
      exact hbefore j hj g w ⟨hg, hw, mt Field.check_eq_none_iff.mpr hcheck⟩

end Submission

end Vetting
