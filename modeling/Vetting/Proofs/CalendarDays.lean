import Vetting.Calendar.Date

/-! # Days of the calendar and their numbers

A number is split into eras of 400 years, centuries, cycles of four years, years and days. The last
century of an era and the last year of a cycle have one day more, and that day is the last of a year
that starts in March. So every number is that of the date it is split into, and this date is in the
calendar. -/

namespace Vetting.Date

/-- The parts of a day's number, counted from 0000-03-01. -/
structure Parts where
  era : Int
  century : Nat
  cycle : Nat
  year : Nat
  day : Nat

namespace Parts

/-- The year that starts in March. -/
def marchYear (p : Parts) : Int := p.era * 400 + (p.century * 100 + p.cycle * 4 + p.year : Nat)

def month (p : Parts) : Nat := (5 * p.day + 2) / 153

def date (p : Parts) : Date :=
  let day := p.day - monthStart p.month + 1
  if p.month < 10 then ⟨p.marchYear, p.month + 3, day⟩ else ⟨p.marchYear + 1, p.month - 9, day⟩

def number (p : Parts) : Int :=
  p.era * eraDays + (p.century * 36524 + p.cycle * 1461 + p.year * 365 + p.day : Nat) - epochOffset

/-- The parts are within their bounds; a year's last day is there in leap years only. -/
structure InBounds (p : Parts) : Prop where
  century_le : p.century ≤ 3
  cycle_le : p.cycle ≤ 24
  year_le : p.year ≤ 3
  day_le : p.day ≤ 365
  leap : p.day = 365 → p.year = 3 ∧ (p.cycle = 24 → p.century = 3)

end Parts

/-- A number is split into parts within their bounds. -/
theorem ofDays_parts (n : Int) : ∃ p : Parts, p.InBounds ∧ p.number = n ∧ ofDays n = p.date := by
  obtain ⟨era, hera⟩ : ∃ era, era = (n + epochOffset).fdiv eraDays := ⟨_, rfl⟩
  obtain ⟨d, hd⟩ : ∃ d : Nat, d = (n + epochOffset - era * eraDays).toNat := ⟨_, rfl⟩
  have hsplit : (d : Int) = n + epochOffset - era * eraDays ∧ d < 146097 := by
    rw [Int.fdiv_eq_ediv_of_nonneg _ (by decide)] at hera
    simp only [eraDays, epochOffset] at hera hd ⊢
    omega
  obtain ⟨c, hc⟩ : ∃ c, c = min (d / 36524) 3 := ⟨_, rfl⟩
  obtain ⟨k, hk⟩ : ∃ k, k = d - c * 36524 := ⟨_, rfl⟩
  obtain ⟨cy, hcy⟩ : ∃ cy, cy = k / 1461 := ⟨_, rfl⟩
  obtain ⟨l, hl⟩ : ∃ l, l = k - cy * 1461 := ⟨_, rfl⟩
  obtain ⟨y, hy⟩ : ∃ y, y = min (l / 365) 3 := ⟨_, rfl⟩
  refine ⟨⟨era, c, cy, y, l - y * 365⟩, ⟨?_, ?_, ?_, ?_, ?_⟩, ?_, ?_⟩
  · dsimp only; omega
  · dsimp only; omega
  · dsimp only; omega
  · dsimp only; omega
  · dsimp only; omega
  · simp only [Parts.number]
    omega
  · subst hy hl hcy hk hc hd hera
    rfl

namespace Parts

variable {p : Parts}

theorem day_eq (p : Parts) : monthStart p.month + (p.day - monthStart p.month) = p.day := by
  unfold monthStart month
  omega

theorem month_le (h : p.InBounds) : p.month ≤ 11 := by
  have hd := h.day_le
  unfold month
  omega

theorem date_from_march (h : p.InBounds) :
    (if p.date.month ≤ 2 then p.date.year - 1 else p.date.year) = p.marchYear ∧
      (if p.date.month ≤ 2 then p.date.month + 9 else p.date.month - 3) = p.month ∧
      p.date.day = p.day - monthStart p.month + 1 := by
  have hm := month_le h
  unfold date
  dsimp only
  split
  · rw [if_neg (by dsimp only; omega), if_neg (by dsimp only; omega)]
    exact ⟨rfl, by dsimp only; omega, rfl⟩
  · rw [if_pos (by dsimp only; omega), if_pos (by dsimp only; omega)]
    exact ⟨by dsimp only; omega, by dsimp only; omega, rfl⟩

theorem toDays_date (h : p.InBounds) : p.date.toDays = p.number := by
  obtain ⟨hyear, hmonth, hday⟩ := date_from_march h
  have hcount := p.day_eq
  simp only [toDays, hyear, hmonth, hday, number]
  rw [Int.fdiv_eq_ediv_of_nonneg _ (by decide), Int.fdiv_eq_ediv_of_nonneg _ (by decide),
    Int.fdiv_eq_ediv_of_nonneg _ (by decide)]
  obtain ⟨hc, hcy, hy, -, -⟩ := h
  simp only [marchYear, eraDays, epochOffset]
  omega

theorem isLeap_iff (y : Int) : isLeap y = true ↔ y % 4 = 0 ∧ (y % 100 ≠ 0 ∨ y % 400 = 0) := by
  simp [isLeap]

/-- The last day of a leap year that starts in March is in February of the next one. -/
theorem isLeap_of_last_day (h : p.InBounds) (hlast : p.day = 365) :
    isLeap (p.marchYear + 1) = true := by
  obtain ⟨hc, hcy, -, -, hleap⟩ := h
  obtain ⟨hy, hcentury⟩ := hleap hlast
  rw [isLeap_iff, marchYear]
  omega

theorem day_bound (h : p.InBounds) :
    p.day - monthStart p.month + 1 ≤ 31 ∧
      (p.month = 1 ∨ p.month = 3 ∨ p.month = 6 ∨ p.month = 8 →
        p.day - monthStart p.month + 1 ≤ 30) ∧
      (p.month = 11 → p.day - monthStart p.month + 1 ≤ 29) ∧
      (p.month = 11 → p.day ≠ 365 → p.day - monthStart p.month + 1 ≤ 28) := by
  have hd := h.day_le
  unfold monthStart month
  omega

theorem day_le_daysInMonth (h : p.InBounds) :
    p.date.day ≤ daysInMonth p.date.year p.date.month := by
  have hm := month_le h
  obtain ⟨hday, hshort, hfebruary, hcommon⟩ := day_bound h
  unfold date daysInMonth
  dsimp only
  split
  · rw [if_neg (by dsimp only; omega)]
    dsimp only
    split <;> omega
  · dsimp only
    split
    · by_cases hlast : p.day = 365
      · rw [isLeap_of_last_day h hlast]
        exact hfebruary (by omega)
      · have hbound := hcommon (by omega) hlast
        split <;> omega
    · split <;> omega

theorem year_bounds (h : p.InBounds) (hmin : (Date.mk minYear 1 1).toDays ≤ p.number)
    (hmax : p.number ≤ (Date.mk maxYear 12 31).toDays) :
    minYear ≤ p.date.year ∧ p.date.year ≤ maxYear := by
  have hfirst : (Date.mk minYear 1 1).toDays = -96465292 := by decide
  have hfinal : (Date.mk maxYear 12 31).toDays = 95026236 := by decide
  obtain ⟨hc, hcy, hy, hd, -⟩ := h
  rw [hfirst] at hmin
  rw [hfinal] at hmax
  simp only [number, eraDays, epochOffset] at hmin hmax
  have hmonth : p.month < 10 ↔ p.day ≤ 305 := by
    unfold month
    omega
  -- the first and the last year are each in one era, century and cycle
  have hera : -656 ≤ p.era ∧ p.era ≤ 655 := by omega
  have hcentury : (p.era = -656 → 2 ≤ p.century) ∧ (p.era = 655 → p.century ≤ 1) := by omega
  have hcycle : (p.era = -656 → p.century = 2 → 14 ≤ p.cycle) ∧
      (p.era = 655 → p.century = 1 → p.cycle ≤ 10) := by omega
  unfold date marchYear minYear maxYear
  split
  · dsimp only
    omega
  · dsimp only
    omega

theorem isValid_date (h : p.InBounds) (hmin : (Date.mk minYear 1 1).toDays ≤ p.number)
    (hmax : p.number ≤ (Date.mk maxYear 12 31).toDays) : p.date.IsValid := by
  obtain ⟨hlow, hhigh⟩ := year_bounds h hmin hmax
  refine ⟨hlow, hhigh, ?_, ?_, ?_, day_le_daysInMonth h⟩
  all_goals
    have hm := month_le h
    unfold date
    dsimp only
    split
  all_goals dsimp only; omega

end Parts

/-- **Every number is that of its day.** -/
theorem toDays_ofDays (n : Int) : (ofDays n).toDays = n := by
  obtain ⟨p, hp, hn, heq⟩ := ofDays_parts n
  rw [heq, p.toDays_date hp, hn]

/-- The day of a number is in the calendar, if its year can be written. -/
theorem isValid_ofDays {n : Int} (hmin : (Date.mk minYear 1 1).toDays ≤ n)
    (hmax : n ≤ (Date.mk maxYear 12 31).toDays) : (ofDays n).IsValid := by
  obtain ⟨p, hp, rfl, heq⟩ := ofDays_parts n
  rw [heq]
  exact p.isValid_date hp hmin hmax

end Vetting.Date
