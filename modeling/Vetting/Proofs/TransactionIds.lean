import Mathlib.Algebra.Group.Nat.Defs
import Mathlib.Data.List.DropRight
import Vetting.Desk.Logbook

/-! # The text of transaction ids

An id is the product's letters, a time and a number, with dashes between them. The letters have no
dash and the number has none, so both can be read back whatever the time: the letters are what
stands before the first dash, the number is what stands after the last one. A time in a year of
four digits is fourteen digits, and then the id has just these three parts. -/

namespace Vetting

namespace Text

/-- `s` is made of `n` digits. -/
structure HasDigits (n : Nat) (s : String) : Prop where
  length_eq : s.toList.length = n
  isDigit : ∀ c ∈ s.toList, c.isDigit = true

theorem HasDigits.append {m n : Nat} {s t : String} (hs : HasDigits m s) (ht : HasDigits n t) :
    HasDigits (m + n) (s ++ t) where
  length_eq := by simp [hs.length_eq, ht.length_eq]
  isDigit := by
    intro c hc
    rw [String.toList_append] at hc
    exact (List.mem_append.mp hc).elim (hs.isDigit c) (ht.isDigit c)

theorem toList_toString (n : Nat) : (toString n).toList = Nat.toDigits 10 n := by
  rw [Nat.toString_eq_ofList_toDigits, String.toList_ofList]

theorem isDigit_of_mem_toString {n : Nat} {c : Char} (hc : c ∈ (toString n).toList) :
    c.isDigit = true := by
  rw [toList_toString] at hc
  exact Nat.isDigit_of_mem_toDigits (by omega) (by omega) hc

theorem hasDigits_padded {width n : Nat} (hpos : 0 < width) (hn : n < 10 ^ width) :
    HasDigits width (padded width n) := by
  have hle : (toString n).length ≤ width := by
    rw [← String.length_toList, toList_toString]
    exact (Nat.length_toDigits_le_iff (by omega) hpos).mpr hn
  constructor
  · simp only [padded, String.toList_append, String.toList_ofList, List.length_append,
      List.length_replicate, String.length_toList]
    omega
  · intro c hc
    simp only [padded, String.toList_append, String.toList_ofList, List.mem_append] at hc
    rcases hc with hc | hc
    · rw [List.eq_of_mem_replicate hc]
      rfl
    · exact isDigit_of_mem_toString hc

theorem twoDigits_eq_padded (n : Nat) : twoDigits n = padded 2 n := by
  have hpos : 0 < (Nat.toDigits 10 n).length := Nat.length_toDigits_pos
  have hone := Nat.length_toDigits_le_iff (n := n) (b := 10) (k := 1) (by omega) (by omega)
  simp only [twoDigits, padded, ← String.length_toList, toList_toString]
  split
  · next hlt =>
    have hlen : (Nat.toDigits 10 n).length = 1 := by
      have := hone.mpr (by omega)
      omega
    rw [hlen]
    rfl
  · next hge =>
    have hlen : ¬ (Nat.toDigits 10 n).length ≤ 1 := fun hle => hge (by simpa using hone.mp hle)
    rw [show 2 - (Nat.toDigits 10 n).length = 0 by omega]
    rfl

theorem hasDigits_twoDigits {n : Nat} (hn : n < 100) : HasDigits 2 (twoDigits n) := by
  rw [twoDigits_eq_padded]
  exact hasDigits_padded (by omega) hn

end Text

/-- Months and days of the calendar have two digits at most. -/
theorem Date.ofDays_lt (n : Int) : (ofDays n).month < 100 ∧ (ofDays n).day < 100 := by
  have hyear (d : Nat) : d % 1461 - min (d % 1461 / 365) 3 * 365 ≤ 365 := by omega
  simp only [ofDays]
  generalize (n + epochOffset - (n + epochOffset).fdiv eraDays * eraDays).toNat = d
  generalize d - min (d / 36524) 3 * 36524 = c
  have hcycle : c - c / 1461 * 1461 = c % 1461 := by omega
  have hday := hyear c
  rw [hcycle]
  generalize c % 1461 - min (c % 1461 / 365) 3 * 365 = k at hday
  have hmonth : monthStart ((5 * k + 2) / 153) + 31 > k := by
    unfold monthStart
    omega
  split
  · dsimp only
    omega
  · dsimp only
    omega

namespace Instant

/-- An instant in a year of four digits, whose fraction is less than two seconds. -/
structure FourDigitYear (i : Instant) : Prop where
  year_nonneg : 0 ≤ i.date.year
  year_le : i.date.year ≤ 9999
  nano_lt : i.nano < 2 * nanosPerSecond

theorem secondOfDay_lt (i : Instant) : i.secondOfDay < 86400 := by
  have hlt := Int.fmod_lt_of_pos i.second (b := daySeconds) (by decide)
  simp only [secondOfDay, daySeconds] at hlt ⊢
  omega

end Instant

namespace Logbook

theorem hasDigits_digits {now : Instant} (h : now.FourDigitYear) :
    Text.HasDigits 14 (digits now) := by
  have hs := now.secondOfDay_lt
  obtain ⟨hmonth, hday⟩ := Date.ofDays_lt (now.second.fdiv Instant.daySeconds)
  have hsecond : now.clockSecond < 100 := by
    have := h.nano_lt
    simp only [Instant.clockSecond, Instant.nanosPerSecond] at this ⊢
    omega
  have hyear : Text.HasDigits 4 (Instant.renderYear now.date.year) := by
    rw [Instant.renderYear, if_pos ⟨h.year_nonneg, h.year_le⟩]
    have := h.year_le
    exact Text.hasDigits_padded (by omega) (by omega)
  exact ((((hyear.append (Text.hasDigits_twoDigits hmonth)).append
    (Text.hasDigits_twoDigits hday)).append (Text.hasDigits_twoDigits (by omega))).append
    (Text.hasDigits_twoDigits (by omega))).append (Text.hasDigits_twoDigits hsecond)

/-- No product's letters have a dash. -/
theorem dash_not_mem_letters (p : Product) : '-' ∉ p.letters.toList := by
  cases p with
  | multipleLoans w => cases w <;> decide +kernel
  | _ => decide +kernel

theorem ne_dash_of_isDigit {c : Char} (h : c.isDigit = true) : c ≠ '-' := by
  rintro rfl
  cases h

/-- Characters among which there is no dash. -/
theorem ne_dash_of_not_mem {cs : List Char} (h : '-' ∉ cs) : ∀ c ∈ cs, decide (c ≠ '-') = true := by
  intro c hc
  rw [decide_eq_true_iff]
  rintro rfl
  exact h hc

theorem dash_not_mem_toString (n : Nat) : '-' ∉ (toString n).toList :=
  fun h => ne_dash_of_isDigit (Text.isDigit_of_mem_toString h) rfl

theorem toList_transactionId (letters : String) (now : Instant) (n : UInt64) :
    (transactionId letters now n).toList =
      letters.toList ++ '-' :: ((digits now).toList ++ '-' :: (toString n.toNat).toList) := by
  simp [transactionId]

/-! ## Reading an id back -/

/-- The parts of an id between its dashes. -/
def parts (id : String) : List String := (id.toList.splitOn '-').map String.ofList

/-- The letters that an id starts with. -/
def lettersOf (id : String) : String := String.ofList (id.toList.takeWhile (· ≠ '-'))

/-- The number that an id ends with. -/
def numberOf (id : String) : Nat := Nat.ofDigitChars 10 (id.toList.rtakeWhile (· ≠ '-')) 0

/-- What stands after the last dash. -/
theorem rtakeWhile_append_cons {α : Type} {p : α → Bool} {xs ys : List α} {a : α}
    (ha : p a = false) (hys : ∀ y ∈ ys, p y = true) : (xs ++ a :: ys).rtakeWhile p = ys := by
  have hrev : ∀ y ∈ ys.reverse, p y = true := fun y hy => hys y (List.mem_reverse.mp hy)
  simp [List.rtakeWhile, List.takeWhile_append_of_pos hrev, ha]

theorem lettersOf_transactionId {letters : String} (h : '-' ∉ letters.toList) (now : Instant)
    (n : UInt64) : lettersOf (transactionId letters now n) = letters := by
  rw [lettersOf, toList_transactionId, List.takeWhile_append_of_pos (ne_dash_of_not_mem h)]
  simp

theorem numberOf_transactionId (letters : String) (now : Instant) (n : UInt64) :
    numberOf (transactionId letters now n) = n.toNat := by
  have hall := ne_dash_of_not_mem (dash_not_mem_toString n.toNat)
  rw [numberOf, toList_transactionId, ← List.cons_append, ← List.append_assoc,
    rtakeWhile_append_cons (by simp) hall, Text.toList_toString, Nat.ofDigitChars_ten_toDigits]

theorem splitOn_of_not_mem {xs : List Char} (h : '-' ∉ xs) : xs.splitOn '-' = [xs] :=
  List.splitOnP_eq_singleton fun c hc => by
    simpa using ne_dash_of_not_mem h c hc

theorem splitOn_append_dash {xs : List Char} (h : '-' ∉ xs) (ys : List Char) :
    (xs ++ '-' :: ys).splitOn '-' = xs :: ys.splitOn '-' := by
  have hsplit : (xs ++ '-' :: ys).splitOn '-' = xs.splitOn '-' ++ ys.splitOn '-' :=
    List.splitOnP_append_cons xs ys (by simp)
  rw [hsplit, splitOn_of_not_mem h]
  rfl

/-- **An id has three parts**, if its time is written in digits alone. -/
theorem parts_transactionId {letters : String} (h : '-' ∉ letters.toList) {now : Instant}
    (hnow : now.FourDigitYear) (n : UInt64) :
    parts (transactionId letters now n) = [letters, digits now, toString n.toNat] := by
  have hdigits : '-' ∉ (digits now).toList :=
    fun hmem => ne_dash_of_isDigit ((hasDigits_digits hnow).isDigit _ hmem) rfl
  rw [parts, toList_transactionId, splitOn_append_dash h, splitOn_append_dash hdigits,
    splitOn_of_not_mem (dash_not_mem_toString _)]
  simp only [List.map_cons, List.map_nil, String.ofList_toList]

end Logbook

end Vetting
