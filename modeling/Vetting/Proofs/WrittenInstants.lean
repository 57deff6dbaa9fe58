import Vetting.Calendar.Instant
import Vetting.Proofs.CalendarDays
import Vetting.Proofs.TransactionIds
import Vetting.Proofs.WrittenDates

/-! # Instants as they are written

Each part of a written instant is read back from the front of the text, whatever follows, as no
part is followed by a digit. Main statements: an instant that a text denotes is written in UTC, and
what is written denotes it to the nanosecond, a leap second as the sixtieth. -/

namespace Vetting

namespace Text

theorem digit?_of_char {c : Char} (h : c.isDigit = true) :
    digit? c = some (c.toNat - '0'.toNat) := by
  simp only [Char.isDigit, Bool.and_eq_true, decide_eq_true_eq] at h
  exact if_pos h

theorem isDigit_of_char {c : Char} (h : c.isDigit = true) : isDigit c = true := by
  rw [isDigit, digit?_of_char h]
  rfl

theorem ofDigits_toDigits (n : Nat) : ofDigits (Nat.toDigits 10 n) = n := by
  have hstep (k : Nat) (c : Char) (hc : c ∈ Nat.toDigits 10 n) :
      k * 10 + (digit? c).getD 0 = 10 * k + (c.toNat - '0'.toNat) := by
    rw [digit?_of_char (Nat.isDigit_of_mem_toDigits (by omega) (by omega) hc), Nat.mul_comm]
    rfl
  rw [ofDigits, List.foldl_ext _ _ _ hstep]
  exact Nat.ofDigitChars_ten_toDigits

theorem ofDigits_padded (width n : Nat) : ofDigits (padded width n).toList = n := by
  have hzeros (k : Nat) : ofDigits (List.replicate k '0' ++ Nat.toDigits 10 n) = n := by
    induction k with
    | zero => exact ofDigits_toDigits n
    | succ k ih =>
      rw [List.replicate_succ, List.cons_append, ofDigits_cons, ih]
      simp [digitValue, digit?]
  rw [padded, String.toList_append, String.toList_ofList, toList_toString]
  exact hzeros _

theorem isNumeral_padded (width n : Nat) : IsNumeral (padded width n).toList := by
  rw [padded, String.toList_append, String.toList_ofList]
  refine ⟨fun hnil => ?_, fun c hc => ?_⟩
  · have hempty := (List.append_eq_nil_iff.mp hnil).2
    rw [toList_toString] at hempty
    exact Nat.toDigits_ne_nil hempty
  · rcases List.mem_append.mp hc with hzero | hdigit
    · rw [List.eq_of_mem_replicate hzero]
      rfl
    · exact isDigit_of_char (isDigit_of_mem_toString hdigit)

end Text

namespace Calendar.Scan

open Text (AllDigits IsNumeral isDigit ofDigits padded twoDigits)

/-- A padded number is read back if no other digit follows or no more are wanted. -/
theorem digits_padded {width w n : Nat} (rest : List Char)
    (hwidth : (padded w n).toList.length ≤ width)
    (hend : (padded w n).toList.length = width ∨ ∀ c ∈ rest.head?, isDigit c = false)
    (hfits : n < Nat.pow 2 63) : digits width ((padded w n).toList ++ rest) = .ok (n, rest) := by
  have hnumeral := Text.isNumeral_padded w n
  have htaken := taken_digits hnumeral.2 hwidth hend
  have hvalue := Text.ofDigits_padded w n
  generalize (padded w n).toList = ds at *
  obtain ⟨c, cs, rfl⟩ := List.exists_cons_of_ne_nil hnumeral.1
  have hc : isDigit c = true := hnumeral.2 c List.mem_cons_self
  rw [List.cons_append] at htaken ⊢
  simp only [digits, hc, if_true, htaken, hvalue]
  rw [if_pos hfits, ← List.cons_append, List.drop_left]

theorem number_twoDigits {lo hi n : Nat} (hlo : lo ≤ n) (hhi : n ≤ hi) (hn : n < 100)
    (rest : List Char) : number 2 lo hi ((twoDigits n).toList ++ rest) = .ok (n, rest) := by
  have hlength : (padded 2 n).toList.length = 2 :=
    (Text.hasDigits_padded (by decide) hn).length_eq
  have hread := digits_padded rest (Nat.le_of_eq hlength) (.inl hlength)
    (Nat.lt_trans hn (by decide))
  rw [Text.twoDigits_eq_padded, number, skipBlanks_numeral (Text.isNumeral_padded 2 n), hread]
  exact if_pos ⟨hlo, hhi⟩

@[simp] theorem char_cons (c : Char) (rest : List Char) : char c (c :: rest) = .ok ((), rest) :=
  if_pos rfl

theorem skipBlanks_cons {c : Char} (h : Text.isBlank c = false) (rest : List Char) :
    skipBlanks (c :: rest) = c :: rest := by
  simp [skipBlanks, h]

theorem year_renderYear {y : Int} (hy : y.natAbs < yearBound) (rest : List Char) :
    year ((Instant.renderYear y).toList ++ '-' :: rest) = .ok (y, '-' :: rest) := by
  have hdash := Date.stops_at_dash rest
  have hfits {n : Nat} (hn : n < yearBound) : n < Nat.pow 2 63 := Nat.lt_trans hn (by decide)
  -- behind a sign any number of digits is wanted, so only the dash ends them
  have hsigned : digits ((padded 4 y.natAbs).toList ++ '-' :: rest).length
      ((padded 4 y.natAbs).toList ++ '-' :: rest) = .ok (y.natAbs, '-' :: rest) :=
    digits_padded _ (by simp) (.inr hdash) (hfits hy)
  unfold Instant.renderYear
  split
  · next hfour =>
    have hlength : (padded 4 y.toNat).toList.length = 4 :=
      (Text.hasDigits_padded (by decide) (by omega)).length_eq
    have hread := digits_padded ('-' :: rest) (Nat.le_of_eq hlength) (.inl hlength)
      (hfits (by omega))
    rw [year_numeral (Text.isNumeral_padded 4 y.toNat), hread]
    have hvalue : ((y.toNat : Nat) : Int) = y := by omega
    simp [bind, Except.bind, hvalue]
  · split
    · next hneg =>
      have htext : ("-" ++ padded 4 y.natAbs).toList ++ '-' :: rest =
          '-' :: ((padded 4 y.natAbs).toList ++ '-' :: rest) := by simp
      have hvalue : -((y.natAbs : Nat) : Int) = y := by omega
      rw [htext, year, skipBlanks_cons (by decide)]
      simp only [hsigned, bind, Except.bind, if_pos (Nat.le_of_lt hy), hvalue]
    · next hpos =>
      have htext : ("+" ++ padded 4 y.natAbs).toList ++ '-' :: rest =
          '+' :: ((padded 4 y.natAbs).toList ++ '-' :: rest) := by simp
      have hvalue : ((y.natAbs : Nat) : Int) = y := by omega
      rw [htext, year, skipBlanks_cons (by decide)]
      simp only [hsigned, bind, Except.bind, if_pos hy, hvalue]

end Calendar.Scan

namespace Instant

open Calendar
open Text (padded twoDigits)

theorem scanFraction_padded {k m : Nat} (hk : 0 < k) (hle : k ≤ 9) (hm : m < 10 ^ k) :
    scanFraction ('.' :: ((padded k m).toList ++ ['Z'])) = .ok (m * Nat.pow 10 (9 - k), ['Z']) := by
  have hlength : (padded k m).toList.length = k := (Text.hasDigits_padded hk hm).length_eq
  have hfits : m < Nat.pow 2 63 := by
    have hpow : 10 ^ k ≤ 10 ^ 9 := Nat.pow_le_pow_right (by decide) hle
    exact Nat.lt_of_lt_of_le hm (Nat.le_trans hpow (by decide))
  have hread := Scan.digits_padded ['Z'] (hlength ▸ hle) (.inr (by simp; decide)) hfits
  simp only [scanFraction, hread, bind, Except.bind, List.length_append, hlength]
  rw [Nat.add_sub_cancel]
  rfl

/-- A fraction is written with as many digits as it needs, and read back. -/
theorem scanFraction_renderFraction {nano : Nat} (h : nano < nanosPerSecond) :
    scanFraction ((renderFraction nano).toList ++ ['Z']) = .ok (nano, ['Z']) := by
  have hdot (s : String) : ("." ++ s).toList ++ ['Z'] = '.' :: (s.toList ++ ['Z']) := by simp
  simp only [nanosPerSecond] at h
  unfold renderFraction
  split
  · next hzero =>
    rw [hzero]
    rfl
  · split
    · rw [hdot, scanFraction_padded (by decide) (by decide) (by omega)]
      have hvalue : nano / 1000000 * Nat.pow 10 (9 - 3) = nano := by simp; omega
      rw [hvalue]
    · split
      · rw [hdot, scanFraction_padded (by decide) (by decide) (by omega)]
        have hvalue : nano / 1000 * Nat.pow 10 (9 - 6) = nano := by simp; omega
        rw [hvalue]
      · rw [hdot, scanFraction_padded (by decide) (by decide) (by omega)]
        simp

/-- An instant that a text can denote: its date can be written, and a fraction of a second or more
comes after a fifty-ninth second only. -/
structure Datable (i : Instant) : Prop where
  first : minSecond ≤ i.second
  last : i.second ≤ maxSecond
  nano_lt : i.nano < 2 * nanosPerSecond
  leap : nanosPerSecond ≤ i.nano → i.second % 60 = 59

/-- What an instant is written as, part by part. -/
def reading (i : Instant) : Reading where
  date := i.date
  hour := i.secondOfDay / 3600
  minute := i.secondOfDay / 60 % 60
  second := i.clockSecond
  nano := i.nano % nanosPerSecond

variable {i : Instant}

theorem isValid_date (h : i.Datable) : i.date.IsValid := by
  have hfirst := h.first
  have hlast := h.last
  unfold date
  rw [Int.fdiv_eq_ediv_of_nonneg _ (by decide)]
  refine Date.isValid_ofDays ?_ ?_
  · simp only [minSecond, daySeconds] at hfirst ⊢
    omega
  · simp only [maxSecond, daySeconds] at hlast ⊢
    omega

theorem clockSecond_le (h : i.Datable) : i.clockSecond ≤ 60 := by
  have hnano := h.nano_lt
  simp only [clockSecond, nanosPerSecond] at hnano ⊢
  omega

theorem toList_render (i : Instant) : i.render.toList =
    (renderYear i.date.year).toList ++ '-' :: ((twoDigits i.date.month).toList ++
      '-' :: ((twoDigits i.date.day).toList ++ 'T' :: ((twoDigits i.reading.hour).toList ++
      ':' :: ((twoDigits i.reading.minute).toList ++ ':' :: ((twoDigits i.reading.second).toList ++
      ((renderFraction i.reading.nano).toList ++ ['Z'])))))) := by
  simp [render, reading]

/-- **An instant is written part by part, and ends with the letter for UTC.** -/
theorem scanReading_render (h : i.Datable) :
    scanReading i.render.toList = .ok (i.reading, ['Z']) := by
  obtain ⟨hmin, hmax, hmonth, hmonth', hday, hday'⟩ := isValid_date h
  have hs := i.secondOfDay_lt
  have hsecond : i.reading.second ≤ 60 := clockSecond_le h
  have hhour : i.reading.hour ≤ 23 := by
    simp only [reading]
    omega
  have hminute : i.reading.minute ≤ 59 := by
    simp only [reading]
    omega
  have hlong : i.date.day ≤ 31 := by
    refine Nat.le_trans hday' ?_
    unfold Date.daysInMonth
    split
    · split <;> decide
    · split <;> decide
  have hyear : i.date.year.natAbs < Scan.yearBound := by
    have hbound : Scan.yearBound = 2147483648 := by decide
    simp only [Date.minYear, Date.maxYear] at hmin hmax
    omega
  have hnano : i.reading.nano < nanosPerSecond := Nat.mod_lt _ (by decide)
  have hmonths (rest : List Char) :
      Scan.month ((twoDigits i.date.month).toList ++ rest) = .ok (i.date.month, rest) :=
    Scan.number_twoDigits hmonth hmonth' (by omega) rest
  have hdays (rest : List Char) :
      Scan.day ((twoDigits i.date.day).toList ++ rest) = .ok (i.date.day, rest) :=
    Scan.number_twoDigits hday hlong (by omega) rest
  have hclock {n hi : Nat} (hn : n ≤ hi) (hhi : hi < 100) (rest : List Char) :
      Scan.number 2 0 hi ((twoDigits n).toList ++ rest) = .ok (n, rest) :=
    Scan.number_twoDigits (Nat.zero_le n) hn (by omega) rest
  have hdash : Text.isBlank '-' = false := by decide
  have hcolon : Text.isBlank ':' = false := by decide
  rw [toList_render]
  simp only [scanReading, bind, Except.bind, Scan.year_renderYear hyear, Scan.skipBlanks_cons hdash,
    Scan.char_cons, hmonths, hdays, true_or, if_true, hclock hhour (by decide),
    Scan.skipBlanks_cons hcolon, hclock hminute (by decide), hclock hsecond (by decide),
    scanFraction_renderFraction hnano]
  rfl

/-- The day and the second of the day make the second. -/
theorem second_eq (i : Instant) :
    i.date.toDays * daySeconds + (i.secondOfDay : Int) = i.second := by
  have hdays : i.date.toDays = i.second.fdiv daySeconds := Date.toDays_ofDays _
  rw [hdays, secondOfDay, Int.fdiv_eq_ediv_of_nonneg _ (by decide),
    Int.fmod_eq_emod_of_nonneg _ (by decide)]
  simp only [daySeconds]
  omega

/-- A sixtieth second is the fifty-ninth, with a fraction of a second or more. -/
theorem clock_of_reading (h : i.Datable) :
    (if i.reading.second = 60 then (59, i.reading.nano + nanosPerSecond)
      else (i.reading.second, i.reading.nano)) = (i.secondOfDay % 60, i.nano) := by
  have hsum := second_eq i
  have hminute : i.second % 60 = (i.secondOfDay % 60 : Nat) := by
    simp only [daySeconds] at hsum
    omega
  have hnano := h.nano_lt
  have hleap := h.leap
  have hwritten : i.reading.second = i.secondOfDay % 60 + i.nano / 1000000000 := rfl
  have hfraction : i.reading.nano = i.nano % 1000000000 := rfl
  simp only [nanosPerSecond] at hnano hleap ⊢
  by_cases hlong : 1000000000 ≤ i.nano
  · have hlast : i.secondOfDay % 60 = 59 := by
      have := hleap hlong
      omega
    rw [if_pos (by omega), hlast]
    exact Prod.ext rfl (by dsimp only; omega)
  · rw [if_neg (by omega)]
    exact Prod.ext (by dsimp only; omega) (by dsimp only; omega)

/-- **What an instant is written as denotes it**, its clock being that of UTC. -/
theorem ofReading_reading (h : i.Datable) : ofReading i.reading 0 = .ok i := by
  have hdate : i.reading.date.IsValid := isValid_date h
  have hclock : i.reading.hour * 3600 + i.reading.minute * 60 + i.secondOfDay % 60 =
      i.secondOfDay := by
    simp only [reading]
    omega
  have hsecond : i.reading.date.toDays * daySeconds + (i.secondOfDay : Int) - 0 = i.second := by
    rw [Int.sub_zero]
    exact second_eq i
  rw [ofReading, if_neg (not_not_intro hdate), if_neg (by decide)]
  simp only [clock_of_reading h, hclock, hsecond]
  exact if_pos ⟨h.first, h.last⟩

/-- A text is the date and the time of an instant in UTC. -/
def IsUtcText (i : Instant) (text : String) : Prop :=
  ∃ r, scanReading text.toList = .ok (r, ['Z']) ∧ ofReading r 0 = .ok i

theorem isUtcText_render (h : i.Datable) : i.IsUtcText i.render :=
  ⟨i.reading, scanReading_render h, ofReading_reading h⟩

theorem IsUtcText.ofText {text : String} (h : i.IsUtcText text) : ofText text = .ok i := by
  obtain ⟨r, hscan, hread⟩ := h
  simp only [Instant.ofText, hscan, bind, Except.bind]
  exact hread

/-! ## Instants that are read -/

theorem scanFraction_lt {n : Nat} {cs out : List Char} (h : scanFraction cs = .ok (n, out)) :
    n < nanosPerSecond := by
  unfold scanFraction at h
  split at h
  · next rest =>
    obtain ⟨⟨m, after⟩, hread, h⟩ := ok_of_bind h
    cases h
    obtain ⟨rfl, rfl⟩ := Scan.digits_ok hread
    generalize hds : (rest.take 9).takeWhile Text.isDigit = ds
    have hnine : ds.length ≤ 9 := by
      rw [← hds]
      exact Nat.le_trans (List.takeWhile_prefix _).length_le (List.length_take_le ..)
    have hrest : ds.length ≤ rest.length := by
      rw [← hds]
      exact Nat.le_trans (List.takeWhile_prefix _).length_le (List.length_take_le' ..)
    have hcount : rest.length - (rest.drop ds.length).length = ds.length := by
      rw [List.length_drop]
      omega
    rw [hcount]
    have hlt := Nat.mul_lt_mul_of_pos_right (Text.ofDigits_lt ds) (k := 10 ^ (9 - ds.length))
      (Nat.pow_pos (by decide))
    rw [← Nat.pow_add, Nat.add_sub_cancel' hnine] at hlt
    exact hlt
  · cases h
    decide

theorem nano_lt_of_scanReading {r : Reading} {cs out : List Char}
    (h : scanReading cs = .ok (r, out)) : r.nano < nanosPerSecond := by
  obtain ⟨⟨_, _⟩, -, h⟩ := ok_of_bind h
  obtain ⟨⟨_, _⟩, -, h⟩ := ok_of_bind h
  obtain ⟨⟨_, _⟩, -, h⟩ := ok_of_bind h
  obtain ⟨⟨_, _⟩, -, h⟩ := ok_of_bind h
  obtain ⟨⟨_, _⟩, -, h⟩ := ok_of_bind h
  dsimp only at h
  split at h
  · cases h
  · split at h
    · obtain ⟨_, -, h⟩ := ok_of_bind h
      obtain ⟨⟨_, _⟩, -, h⟩ := ok_of_bind h
      obtain ⟨⟨_, _⟩, -, h⟩ := ok_of_bind h
      obtain ⟨⟨_, _⟩, -, h⟩ := ok_of_bind h
      obtain ⟨⟨_, _⟩, -, h⟩ := ok_of_bind h
      obtain ⟨⟨_, _⟩, -, h⟩ := ok_of_bind h
      obtain ⟨⟨nano, _⟩, hnano, h⟩ := ok_of_bind h
      cases h
      exact scanFraction_lt hnano
    · cases h

/-- Offsets from UTC are whole minutes. -/
theorem dvd_of_scanOffset {sign offset : Int} {cs out : List Char}
    (h : scanOffset sign cs = .ok (offset, out)) : 60 ∣ offset := by
  simp only [scanOffset, bind, Except.bind] at h
  split at h
  · split at h
    · split at h
      · split at h
        · split at h
          · cases h
            exact Dvd.dvd.mul_left (by omega) _
          · cases h
        · cases h
      · split at h <;> cases h
    · cases h
  · split at h <;> cases h

theorem dvd_of_scanZone {offset : Int} {cs out : List Char}
    (h : scanZone cs = .ok (offset, out)) : 60 ∣ offset := by
  have hzero {rest : List Char}
      (h : Except.ok (ε := Fault) ((0 : Int), rest) = .ok (offset, out)) : 60 ∣ offset := by
    cases h
    exact Int.dvd_zero 60
  unfold scanZone at h
  dsimp only at h
  split at h
  · split at h
    · exact hzero h
    · split at h
      · exact hzero h
      · exact hzero h
      · exact dvd_of_scanOffset h
      · exact dvd_of_scanOffset h
      · exact dvd_of_scanOffset h
      · cases h
      · cases h
  · split at h
    · exact hzero h
    · exact hzero h
    · exact dvd_of_scanOffset h
    · exact dvd_of_scanOffset h
    · exact dvd_of_scanOffset h
    · cases h
    · cases h

theorem datable_of_ofReading {r : Reading} {offset : Int} (hnano : r.nano < nanosPerSecond)
    (hoffset : 60 ∣ offset) (h : ofReading r offset = .ok i) : i.Datable := by
  simp only [nanosPerSecond] at hnano
  unfold ofReading at h
  split at h
  · cases h
  · split at h
    · cases h
    · dsimp only at h
      split at h
      · split at h
        · next hbounds =>
          cases h
          refine ⟨hbounds.1, hbounds.2, ?_, fun _ => ?_⟩
          · dsimp only [nanosPerSecond]
            omega
          · dsimp only [daySeconds]
            omega
        · cases h
      · split at h
        · next hbounds =>
          cases h
          refine ⟨hbounds.1, hbounds.2, ?_, fun hlong => ?_⟩
          · dsimp only [nanosPerSecond]
            omega
          · dsimp only [nanosPerSecond] at hlong
            omega
        · cases h

/-- **Every instant that a text denotes can be written.** -/
theorem datable_of_ofText {text : String} (h : ofText text = .ok i) : i.Datable := by
  obtain ⟨⟨r, _⟩, hscan, h⟩ := ok_of_bind h
  obtain ⟨⟨offset, _⟩, hzone, h⟩ := ok_of_bind h
  dsimp only at h
  split at h
  · exact datable_of_ofReading (nano_lt_of_scanReading hscan) (dvd_of_scanZone hzone) h
  · cases h

end Instant

end Vetting
