import Mathlib.Data.List.TakeWhile
import Mathlib.Tactic.Ring
import Mathlib.Tactic.Tauto
import Vetting.Calendar.Day
import Vetting.Proofs.PassedLeaves

/-! # Dates as they are written

Texts of as many digits are ordered as the numbers they denote. So two dates whose texts have as
many digits for the year, the month and the day one as the other are ordered as their texts. Texts
that differ in this may be ordered the other way. -/

namespace Vetting

namespace Text

/-- Digits only. -/
def AllDigits (cs : List Char) : Prop := ∀ c ∈ cs, isDigit c = true

/-- A numeral: digits only, and at least one. -/
def IsNumeral (cs : List Char) : Prop := cs ≠ [] ∧ AllDigits cs

def digitValue (c : Char) : Nat := (digit? c).getD 0

theorem digit?_of_isDigit {c : Char} (h : isDigit c = true) :
    '0' ≤ c ∧ c ≤ '9' ∧ digit? c = some (c.toNat - '0'.toNat) := by
  unfold isDigit digit? at h
  split at h
  · next hc => exact ⟨hc.1, hc.2, if_pos hc⟩
  · simp at h

theorem digitValue_lt (c : Char) : digitValue c < 10 := by
  unfold digitValue digit?
  split
  · next hc =>
    have hle : c.toNat ≤ '9'.toNat := hc.2
    have hnine : '9'.toNat = 57 := rfl
    have hzero : '0'.toNat = 48 := rfl
    simp only [Option.getD_some]
    omega
  · simp

theorem digitValue_lt_iff {c d : Char} (hc : isDigit c = true) (hd : isDigit d = true) :
    c < d ↔ digitValue c < digitValue d := by
  obtain ⟨hc0, -, hcv⟩ := digit?_of_isDigit hc
  obtain ⟨hd0, -, hdv⟩ := digit?_of_isDigit hd
  have hlt : c < d ↔ c.toNat < d.toNat := Iff.rfl
  have hc' : '0'.toNat ≤ c.toNat := hc0
  have hd' : '0'.toNat ≤ d.toNat := hd0
  rw [hlt]
  simp only [digitValue, hcv, hdv, Option.getD_some]
  omega

theorem digitValue_eq_iff {c d : Char} (hc : isDigit c = true) (hd : isDigit d = true) :
    c = d ↔ digitValue c = digitValue d := by
  have hcd := digitValue_lt_iff hc hd
  have hdc := digitValue_lt_iff hd hc
  constructor
  · rintro rfl
    rfl
  · intro hval
    have hncd : ¬ c < d := fun h => absurd (hcd.mp h) (by omega)
    have hndc : ¬ d < c := fun h => absurd (hdc.mp h) (by omega)
    exact Char.le_antisymm (Char.not_lt.mp hndc) (Char.not_lt.mp hncd)

theorem foldl_digits (cs : List Char) (n : Nat) :
    cs.foldl (fun n c => n * 10 + (digit? c).getD 0) n = n * 10 ^ cs.length + ofDigits cs := by
  induction cs generalizing n with
  | nil => simp [ofDigits]
  | cons c cs ih =>
    have hrest := ih ((digit? c).getD 0)
    simp only [ofDigits, List.foldl_cons, List.length_cons, Nat.zero_mul, Nat.zero_add] at hrest ⊢
    rw [ih, hrest, Nat.pow_succ]
    simp only [ofDigits]
    ring

theorem ofDigits_cons (c : Char) (cs : List Char) :
    ofDigits (c :: cs) = digitValue c * 10 ^ cs.length + ofDigits cs := by
  simpa [ofDigits, digitValue] using foldl_digits cs (digitValue c)

theorem ofDigits_lt (cs : List Char) : ofDigits cs < 10 ^ cs.length := by
  induction cs with
  | nil => simp [ofDigits]
  | cons c cs ih =>
    have hfirst : digitValue c * 10 ^ cs.length + 10 ^ cs.length ≤ 10 * 10 ^ cs.length := by
      rw [← Nat.succ_mul]
      exact Nat.mul_le_mul_right _ (digitValue_lt c)
    rw [ofDigits_cons, List.length_cons, Nat.pow_succ']
    omega

/-- A higher first digit outweighs the digits behind it. -/
theorem ofDigits_cons_lt_iff {c d : Char} {xs ys : List Char} (hlen : xs.length = ys.length) :
    ofDigits (c :: xs) < ofDigits (d :: ys) ↔
      digitValue c < digitValue d ∨
        digitValue c = digitValue d ∧ ofDigits xs < ofDigits ys := by
  have hx := ofDigits_lt xs
  have hy := ofDigits_lt ys
  rw [ofDigits_cons, ofDigits_cons, hlen]
  rw [hlen] at hx
  have hstep {a b : Nat} (h : a < b) :
      a * 10 ^ ys.length + 10 ^ ys.length ≤ b * 10 ^ ys.length := by
    rw [← Nat.succ_mul]
    exact Nat.mul_le_mul_right _ h
  rcases Nat.lt_trichotomy (digitValue c) (digitValue d) with hlt | heq | hgt
  · have hle := hstep hlt
    exact iff_of_true (by omega) (.inl hlt)
  · rw [heq]
    simp
  · have hle := hstep hgt
    exact iff_of_false (by omega) (by omega)

/-- **Texts of as many digits are ordered as the numbers they denote.** -/
theorem digits_lt_iff {xs ys : List Char} (hx : AllDigits xs) (hy : AllDigits ys)
    (hlen : xs.length = ys.length) : xs < ys ↔ ofDigits xs < ofDigits ys := by
  induction xs generalizing ys with
  | nil =>
    cases ys with
    | nil => simp
    | cons d ys => simp at hlen
  | cons c xs ih =>
    cases ys with
    | nil => simp at hlen
    | cons d ys =>
      have hc : isDigit c = true := hx c List.mem_cons_self
      have hd : isDigit d = true := hy d List.mem_cons_self
      have hrest := ih (fun a ha => hx a (List.mem_cons_of_mem _ ha))
        (fun a ha => hy a (List.mem_cons_of_mem _ ha)) (Nat.succ.inj hlen)
      rw [List.cons_lt_cons_iff, ofDigits_cons_lt_iff (Nat.succ.inj hlen), digitValue_lt_iff hc hd,
        hrest, digitValue_eq_iff hc hd]

theorem digits_eq_iff {xs ys : List Char} (hx : AllDigits xs) (hy : AllDigits ys)
    (hlen : xs.length = ys.length) : xs = ys ↔ ofDigits xs = ofDigits ys := by
  have hxy := digits_lt_iff hx hy hlen
  have hyx := digits_lt_iff hy hx hlen.symm
  constructor
  · rintro rfl
    rfl
  · intro hval
    have hnxy : ¬ xs < ys := fun h => absurd (hxy.mp h) (by omega)
    have hnyx : ¬ ys < xs := fun h => absurd (hyx.mp h) (by omega)
    exact List.le_antisymm (List.not_lt.mp hnyx) (List.not_lt.mp hnxy)

/-- Texts with parts of the same length in front are ordered by these parts first. -/
theorem append_lt_append_iff {xs ys as bs : List Char} (hlen : xs.length = ys.length) :
    xs ++ as < ys ++ bs ↔ xs < ys ∨ xs = ys ∧ as < bs := by
  induction xs generalizing ys with
  | nil =>
    cases ys with
    | nil => simp
    | cons d ys => simp at hlen
  | cons c xs ih =>
    cases ys with
    | nil => simp at hlen
    | cons d ys =>
      have hrest := ih (Nat.succ.inj hlen)
      simp only [List.cons_append, List.cons_lt_cons_iff, hrest, List.cons.injEq]
      tauto

end Text

namespace Calendar.Scan

open Text (AllDigits IsNumeral isDigit ofDigits)

/-- What was read is as `p` says and ends where `rest` begins, or another digit follows. -/
def ReadTo (rest out : List Char) (p : Prop) : Prop :=
  p ∧ out = rest ∨ ∃ c cs, out = c :: cs ∧ isDigit c = true

theorem digits_ok {width n : Nat} {cs out : List Char} (h : digits width cs = .ok (n, out)) :
    n = ofDigits ((cs.take width).takeWhile isDigit) ∧
      out = cs.drop ((cs.take width).takeWhile isDigit).length := by
  unfold digits at h
  split at h
  · cases h
  · split at h
    · dsimp only at h
      split at h
      · next heq _ =>
        cases h
        exact ⟨rfl, rfl⟩
      · cases h
    · cases h

/-- All of the digits are taken, if no other digit follows or no more are wanted. -/
theorem taken_digits {width : Nat} {ds rest : List Char} (hds : AllDigits ds)
    (hwidth : ds.length ≤ width)
    (hend : ds.length = width ∨ ∀ c ∈ rest.head?, isDigit c = false) :
    ((ds ++ rest).take width).takeWhile isDigit = ds := by
  rw [List.take_append, List.take_of_length_le hwidth, List.takeWhile_append_of_pos hds]
  suffices hnone : (rest.take (width - ds.length)).takeWhile isDigit = [] by
    rw [hnone, List.append_nil]
  rcases hend with heq | hrest
  · rw [heq, Nat.sub_self]
    rfl
  · cases rest with
    | nil => simp
    | cons c rest =>
      have hc : isDigit c = false := hrest c rfl
      cases width - ds.length with
      | zero => simp
      | succ k => simp [hc]

theorem digits_append {width n : Nat} {ds rest out : List Char} (hds : AllDigits ds)
    (hrest : ∀ c ∈ rest.head?, isDigit c = false) (h : digits width (ds ++ rest) = .ok (n, out)) :
    ReadTo rest out (n = ofDigits ds) := by
  obtain ⟨rfl, rfl⟩ := digits_ok h
  by_cases hwidth : ds.length ≤ width
  · left
    rw [taken_digits hds hwidth (.inr hrest), List.drop_left]
    exact ⟨rfl, rfl⟩
  · have htaken : ((ds ++ rest).take width).takeWhile isDigit = ds.take width := by
      rw [List.take_append_of_le_length (by omega)]
      exact List.takeWhile_eq_self_iff.mpr fun c hc => hds c (List.mem_of_mem_take hc)
    right
    rw [htaken, List.length_take, Nat.min_eq_left (by omega),
      List.drop_append_of_le_length (by omega)]
    cases hdrop : ds.drop width with
    | nil => simp at hdrop; omega
    | cons c cs =>
      have hmem : c ∈ ds.drop width := hdrop ▸ List.mem_cons_self
      exact ⟨c, cs ++ rest, rfl, hds c (List.mem_of_mem_drop hmem)⟩

theorem char_eq_ok {c : Char} {u : Unit} {cs out : List Char} (h : char c cs = .ok (u, out)) :
    cs = c :: out := by
  cases cs with
  | nil => cases h
  | cons d rest =>
    by_cases hd : d = c
    · simp only [char, hd, if_true, Except.ok.injEq, Prod.mk.injEq, true_and] at h
      rw [hd, h]
    · simp [char, hd] at h

theorem skipBlanks_numeral {ds : List Char} (hds : IsNumeral ds) (rest : List Char) :
    skipBlanks (ds ++ rest) = ds ++ rest := by
  cases ds with
  | nil => exact absurd rfl hds.1
  | cons c ds =>
    obtain ⟨h0, h9, -⟩ := Text.digit?_of_isDigit (hds.2 c List.mem_cons_self)
    have hlow : '0'.toNat ≤ c.toNat := h0
    have hhigh : c.toNat ≤ '9'.toNat := h9
    have hzero : '0'.toNat = 48 := rfl
    have hnine : '9'.toNat = 57 := rfl
    have hsolid : Text.isBlank c = false := by
      simp only [Text.isBlank, Bool.or_eq_false_iff, Bool.and_eq_false_iff, beq_eq_false_iff_ne,
        decide_eq_false_iff_not]
      omega
    simp [skipBlanks, hsolid]

theorem number_append {width lo hi n : Nat} {ds rest out : List Char} (hds : IsNumeral ds)
    (hrest : ∀ c ∈ rest.head?, isDigit c = false)
    (h : number width lo hi (ds ++ rest) = .ok (n, out)) : ReadTo rest out (n = ofDigits ds) := by
  obtain ⟨⟨m, out'⟩, hread, h⟩ := ok_of_bind h
  rw [skipBlanks_numeral hds] at hread
  dsimp only at h
  split at h
  · cases h
    exact digits_append hds.2 hrest hread
  · cases h

theorem ReadTo.ends_at_dash {p : Prop} {u : Unit} {out rest after : List Char}
    (h : ReadTo rest out p) (hdash : char '-' out = .ok (u, after)) : p ∧ rest = '-' :: after := by
  have hout := char_eq_ok hdash
  rcases h with ⟨hp, rfl⟩ | ⟨c, cs, rfl, hc⟩
  · exact ⟨hp, hout⟩
  · cases (List.cons.inj hout).1
    exact absurd hc (by decide)

theorem year_numeral {ds : List Char} (hds : IsNumeral ds) (rest : List Char) :
    year (ds ++ rest) = (do
      let (n, after) ← digits 4 (ds ++ rest)
      .ok ((n : Int), after)) := by
  have hskip := skipBlanks_numeral hds rest
  obtain ⟨c, cs, rfl⟩ := List.exists_cons_of_ne_nil hds.1
  have hc : isDigit c = true := hds.2 c List.mem_cons_self
  unfold year
  rw [hskip]
  split
  · next heq =>
    cases (List.cons.inj heq).1
    exact absurd hc (by decide)
  · next heq =>
    cases (List.cons.inj heq).1
    exact absurd hc (by decide)
  · rfl

theorem year_append {n : Int} {ds rest out : List Char} (hds : IsNumeral ds)
    (hrest : ∀ c ∈ rest.head?, isDigit c = false) (h : year (ds ++ rest) = .ok (n, out)) :
    ReadTo rest out (n = ofDigits ds) := by
  rw [year_numeral hds] at h
  obtain ⟨⟨m, out'⟩, hread, h⟩ := ok_of_bind h
  cases h
  rcases digits_append hds.2 hrest hread with ⟨rfl, rfl⟩ | hmore
  · exact .inl ⟨rfl, rfl⟩
  · exact .inr hmore

end Calendar.Scan

namespace Date

open Text (IsNumeral ofDigits)
open Calendar

/-- `d` comes before `e` in the calendar. -/
def Before (d e : Date) : Prop :=
  d.year < e.year ∨
    d.year = e.year ∧ (d.month < e.month ∨ d.month = e.month ∧ d.day < e.day)

instance (d e : Date) : Decidable (d.Before e) := by unfold Before; infer_instance

/-- A text is three numerals with dashes between them. -/
structure Numerals (s : String) (y m d : List Char) : Prop where
  text : s.toList = y ++ ('-' :: (m ++ ('-' :: d)))
  year : IsNumeral y
  month : IsNumeral m
  day : IsNumeral d

variable {s t : String} {y m d : List Char} {date date' : Date}

theorem stops_at_dash (cs : List Char) : ∀ c ∈ ('-' :: cs).head?, Text.isDigit c = false := by
  intro c hc
  cases hc
  rfl

theorem Numerals.date_eq (h : Numerals s y m d) (hdate : ofText? s = some date) :
    date = ⟨ofDigits y, ofDigits m, ofDigits d⟩ := by
  unfold ofText? at hdate
  dsimp only at hdate
  split at hdate
  · next read hread =>
    obtain ⟨⟨y', cs₁⟩, hyear, hread⟩ := ok_of_bind hread
    obtain ⟨⟨_, cs₂⟩, hdash, hread⟩ := ok_of_bind hread
    obtain ⟨⟨m', cs₃⟩, hmonth, hread⟩ := ok_of_bind hread
    obtain ⟨⟨_, cs₄⟩, hdash', hread⟩ := ok_of_bind hread
    obtain ⟨⟨d', cs₅⟩, hday, hread⟩ := ok_of_bind hread
    cases hread
    rw [h.text] at hyear
    obtain ⟨rfl, hrest⟩ :=
      (Scan.year_append h.year (stops_at_dash _) hyear).ends_at_dash hdash
    cases hrest
    obtain ⟨rfl, hrest⟩ :=
      (Scan.number_append h.month (stops_at_dash _) hmonth).ends_at_dash hdash'
    cases hrest
    rw [← List.append_nil d] at hday
    rcases Scan.number_append h.day (by simp) hday with ⟨rfl, -⟩ | ⟨c, cs, hmore, -⟩
    · split at hdate <;> cases hdate
      rfl
    · cases hmore
  · cases hdate

/-- Two texts of dates have as many digits for the year, the month and the day. -/
def WrittenAlike (s t : String) : Prop :=
  ∃ y m d y' m' d', Numerals s y m d ∧ Numerals t y' m' d' ∧
    y.length = y'.length ∧ m.length = m'.length ∧ d.length = d'.length

theorem WrittenAlike.symm (h : WrittenAlike s t) : WrittenAlike t s := by
  obtain ⟨y, m, d, y', m', d', hs, ht, hy, hm, hd⟩ := h
  exact ⟨y', m', d', y, m, d, ht, hs, hy.symm, hm.symm, hd.symm⟩

/-- **Dates that are written alike are ordered as their texts.** -/
theorem WrittenAlike.lt_iff_before (h : WrittenAlike s t) (hs : ofText? s = some date)
    (ht : ofText? t = some date') : s < t ↔ date.Before date' := by
  obtain ⟨y, m, d, y', m', d', hns, hnt, hy, hm, hd⟩ := h
  cases hns.date_eq hs
  cases hnt.date_eq ht
  have hdash (xs ys : List Char) : '-' :: xs < '-' :: ys ↔ xs < ys := by
    simp
  rw [String.lt_iff, hns.text, hnt.text, Text.append_lt_append_iff hy, hdash,
    Text.append_lt_append_iff hm, hdash, Text.digits_lt_iff hns.year.2 hnt.year.2 hy,
    Text.digits_eq_iff hns.year.2 hnt.year.2 hy, Text.digits_lt_iff hns.month.2 hnt.month.2 hm,
    Text.digits_eq_iff hns.month.2 hnt.month.2 hm, Text.digits_lt_iff hns.day.2 hnt.day.2 hd]
  simp [Before]

end Date

end Vetting
