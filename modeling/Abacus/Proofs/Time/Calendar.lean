import Mathlib.Tactic.IntervalCases
import Abacus.Time.Calendar

/-!
# The calendar and the count of days

Every day has a date that exists, and counting the days up to that date gives the day back. Years
are counted from March on here, so that a leap day is the last of its year.
-/

namespace Abacus.Date

/-- The days of a cycle of 400 years before one of its years. -/
def daysBefore (year : Int) : Int := 365 * year + year / 4 - year / 100

section Cycle

/-- A day of a cycle by its century, its four years in the century and its place in these. The last
four years of a century have no leap day, but those of the last century have one. -/
structure Place (century fours dayOfFours : Int) : Prop where
  century_nonneg : 0 ≤ century
  century_le : century ≤ 3
  fours_nonneg : 0 ≤ fours
  fours_le : fours ≤ 24
  dayOfFours_nonneg : 0 ≤ dayOfFours
  dayOfFours_le : dayOfFours ≤ 1460
  last : dayOfFours = 1460 → fours = 24 → century = 3

theorem exists_place {day : Int} (hlow : 0 ≤ day) (hhigh : day ≤ 146096) :
    ∃ century fours dayOfFours, Place century fours dayOfFours ∧
      day = 36524 * century + 1461 * fours + dayOfFours ∧
      day / 36524 - day / 146096 = century := by
  generalize hc : day / 36524 - day / 146096 = century
  generalize hrest : day - 36524 * century = rest
  have hcentury : 0 ≤ century ∧ century ≤ 3 := by omega
  have hbounds : 0 ≤ rest ∧ rest ≤ 36524 := by omega
  have hlast : rest = 36524 → century = 3 := by omega
  clear hc hlow hhigh
  have hfours : 0 ≤ rest / 1461 ∧ rest / 1461 ≤ 24 := by omega
  have hday : 0 ≤ rest % 1461 ∧ rest % 1461 ≤ 1460 := by omega
  have hend : rest % 1461 = 1460 → rest / 1461 = 24 → rest = 36524 := by omega
  refine ⟨century, rest / 1461, rest % 1461, ?_, by omega, rfl⟩
  exact ⟨hcentury.1, hcentury.2, hfours.1, hfours.2, hday.1, hday.2,
    fun ht hk => hlast (hend ht hk)⟩

variable {century fours dayOfFours ahead year : Int}

/-- Days by the 1460, against the fours of years: the first run ahead by what is added here. -/
theorem quotient_eq (century fours dayOfFours : Int) :
    (36524 * century + 1461 * fours + dayOfFours) / 1460 =
      25 * century + fours + (24 * century + fours + dayOfFours) / 1460 := by
  have hsplit : 36524 * century + 1461 * fours + dayOfFours =
      24 * century + fours + dayOfFours + 1460 * (25 * century + fours) := by omega
  rw [hsplit, Int.add_mul_ediv_left _ _ (by decide)]
  omega

theorem Place.ahead_cases (h : Place century fours dayOfFours)
    (hahead : ahead = (24 * century + fours + dayOfFours) / 1460) :
    (ahead = 1 ∧ 1364 ≤ dayOfFours) ∨ (ahead = 0 ∧ dayOfFours ≤ 1459) := by
  obtain ⟨h₁, h₂, h₃, h₄, h₅, h₆, -⟩ := h
  have hbounds : 0 ≤ 24 * century + fours + dayOfFours ∧
      24 * century + fours + dayOfFours ≤ 1556 := by omega
  have hcases : ahead = 1 ∨ ahead = 0 := by omega
  rcases hcases with h | h
  · left
    omega
  · right
    omega

/-- The year of four years: the last of them may have one day more than the others. -/
theorem Place.yearOfFours (h : Place century fours dayOfFours)
    (hahead : (ahead = 1 ∧ 1364 ≤ dayOfFours) ∨ (ahead = 0 ∧ dayOfFours ≤ 1459))
    (hyear : year = (dayOfFours - ahead) / 365) :
    0 ≤ year ∧ year ≤ 3 ∧ 365 * year ≤ dayOfFours ∧ dayOfFours ≤ 365 * year + 365 ∧
      (dayOfFours = 365 * year + 365 → dayOfFours = 1460 ∧ year = 3) := by
  have hlow := h.dayOfFours_nonneg
  have hhigh := h.dayOfFours_le
  clear h
  rcases hahead with ⟨rfl, hlarge⟩ | ⟨rfl, hsmall⟩ <;> omega

/-- The computed year of a day of the cycle. -/
theorem year_eq {day : Int} (hday : day = 36524 * century + 1461 * fours + dayOfFours)
    (hcentury : day / 36524 - day / 146096 = century)
    (hquotient : day / 1460 = 25 * century + fours + ahead) :
    (day - day / 1460 + day / 36524 - day / 146096) / 365 =
      100 * century + 4 * fours + (dayOfFours - ahead) / 365 := by
  have hnumerator : day - day / 1460 + day / 36524 - day / 146096 =
      dayOfFours - ahead + 365 * (100 * century + 4 * fours) := by
    rw [hquotient]
    omega
  rw [hnumerator, Int.add_mul_ediv_left _ _ (by decide)]
  omega

theorem daysBefore_eq (h₀ : 0 ≤ year) (h₃ : year ≤ 3) (hlow : 0 ≤ fours) (hhigh : fours ≤ 24) :
    daysBefore (100 * century + 4 * fours + year) =
      36524 * century + 1461 * fours + 365 * year := by
  have hquarter : (100 * century + 4 * fours + year) / 4 = 25 * century + fours := by omega
  have hhundredth : (100 * century + 4 * fours + year) / 100 = century := by omega
  rw [daysBefore, hquarter, hhundredth]
  omega

/-- A day of the cycle lies in the year that is computed for it. A year with a 366th day is the last
of four years, and of a century only in the last one. -/
theorem yearOfCycle_spec {day : Int} (hlow : 0 ≤ day) (hhigh : day ≤ 146096) :
    let year := (day - day / 1460 + day / 36524 - day / 146096) / 365
    0 ≤ year ∧ year ≤ 399 ∧ daysBefore year ≤ day ∧ day ≤ daysBefore year + 365 ∧
      (day = daysBefore year + 365 → year % 4 = 3 ∧ (year % 100 ≠ 99 ∨ year = 399)) := by
  intro year
  obtain ⟨century, fours, dayOfFours, hplace, hday, hcentury⟩ := exists_place hlow hhigh
  generalize hahead : (24 * century + fours + dayOfFours) / 1460 = ahead
  have hquotient : day / 1460 = 25 * century + fours + ahead := by
    rw [hday, quotient_eq, hahead]
  have hyear : year = 100 * century + 4 * fours + (dayOfFours - ahead) / 365 :=
    year_eq hday hcentury hquotient
  generalize hyearOfFours : (dayOfFours - ahead) / 365 = yearOfFours at hyear
  obtain ⟨h₀, h₃, hfirst, hend, hlast⟩ := hplace.yearOfFours (hplace.ahead_cases hahead.symm)
    hyearOfFours.symm
  have hbefore : daysBefore year = 36524 * century + 1461 * fours + 365 * yearOfFours := by
    rw [hyear]
    exact daysBefore_eq h₀ h₃ hplace.fours_nonneg hplace.fours_le
  have hcentury₀ := hplace.century_nonneg
  have hcentury₃ := hplace.century_le
  have hfours₀ := hplace.fours_nonneg
  have hfours₂₄ := hplace.fours_le
  have hcenturyLast := hplace.last
  clear hplace hquotient hcentury hahead hyearOfFours hlow hhigh
  clear_value year
  rw [hbefore]
  refine ⟨by omega, by omega, by omega, by omega, ?_⟩
  intro h
  obtain ⟨hfull, hfourth⟩ := hlast (by omega)
  refine ⟨by omega, ?_⟩
  by_cases hfours : fours = 24
  · right
    have hthree := hcenturyLast hfull hfours
    omega
  · left
    omega

end Cycle

section Years

/-- The date of a day in a year. -/
def ofMarch (year dayOfYear : Int) : Date :=
  let monthFromMarch := (5 * dayOfYear + 2) / 153
  let day := dayOfYear - (153 * monthFromMarch + 2) / 5 + 1
  let month := if monthFromMarch < 10 then monthFromMarch + 3 else monthFromMarch - 9
  ⟨if month ≤ 2 then year + 1 else year, month.toNat, day.toNat⟩

theorem month_bounds {dayOfYear : Int} (hlow : 0 ≤ dayOfYear) (hhigh : dayOfYear ≤ 365) :
    0 ≤ (5 * dayOfYear + 2) / 153 ∧ (5 * dayOfYear + 2) / 153 ≤ 11 := by
  omega

theorem toDays_ofMarch {year dayOfYear : Int} (hlow : 0 ≤ dayOfYear) (hhigh : dayOfYear ≤ 365) :
    (ofMarch year dayOfYear).toDays =
      year / 400 * 146097 + daysBefore (year - year / 400 * 400) + dayOfYear - 719468 := by
  obtain ⟨hmonth₀, hmonth₁₁⟩ := month_bounds hlow hhigh
  rw [ofMarch, toDays, daysBefore]
  generalize hmonth : (5 * dayOfYear + 2) / 153 = month at hmonth₀ hmonth₁₁ ⊢
  interval_cases month <;> simp <;> omega

theorem isValid_ofMarch {year dayOfYear : Int} (hlow : 0 ≤ dayOfYear) (hhigh : dayOfYear ≤ 365)
    (hleap : dayOfYear = 365 → isLeapYear (year + 1) = true) :
    (ofMarch year dayOfYear).isValid = true := by
  obtain ⟨hmonth₀, hmonth₁₁⟩ := month_bounds hlow hhigh
  rw [ofMarch, isValid]
  generalize hmonth : (5 * dayOfYear + 2) / 153 = month at hmonth₀ hmonth₁₁ ⊢
  interval_cases month
  case «11» =>
    have hday : dayOfYear - 337 + 1 ≤ if isLeapYear (year + 1) then 29 else 28 := by
      split
      · omega
      · have hnotLast : dayOfYear ≠ 365 := by
          intro h
          have hlast := hleap h
          contradiction
        omega
    simp [daysInMonth]
    exact ⟨by omega, hday⟩
  all_goals simp [daysInMonth]
  all_goals omega

/-- January and February belong to the next year. -/
theorem year_ofMarch {year dayOfYear : Int} (hlow : 0 ≤ dayOfYear) (hhigh : dayOfYear ≤ 365) :
    (ofMarch year dayOfYear).year = if dayOfYear ≤ 305 then year else year + 1 := by
  obtain ⟨hmonth₀, hmonth₁₁⟩ := month_bounds hlow hhigh
  rw [ofMarch]
  generalize hmonth : (5 * dayOfYear + 2) / 153 = month at hmonth₀ hmonth₁₁ ⊢
  interval_cases month <;> simp <;> omega

end Years

section Days

variable (days : Int)

def cycleOfDays : Int := (days + 719468) / 146097

def dayOfCycle : Int := days + 719468 - cycleOfDays days * 146097

def yearOfDays : Int :=
  (dayOfCycle days - dayOfCycle days / 1460 + dayOfCycle days / 36524 -
    dayOfCycle days / 146096) / 365

theorem ofDays_eq :
    ofDays days = ofMarch (yearOfDays days + cycleOfDays days * 400)
      (dayOfCycle days - daysBefore (yearOfDays days)) :=
  rfl

theorem dayOfCycle_bounds : 0 ≤ dayOfCycle days ∧ dayOfCycle days ≤ 146096 := by
  rw [dayOfCycle, cycleOfDays]
  omega

theorem yearOfDays_spec :
    0 ≤ yearOfDays days ∧ yearOfDays days ≤ 399 ∧ daysBefore (yearOfDays days) ≤ dayOfCycle days ∧
      dayOfCycle days ≤ daysBefore (yearOfDays days) + 365 ∧
      (dayOfCycle days = daysBefore (yearOfDays days) + 365 →
        yearOfDays days % 4 = 3 ∧ (yearOfDays days % 100 ≠ 99 ∨ yearOfDays days = 399)) :=
  yearOfCycle_spec (dayOfCycle_bounds days).1 (dayOfCycle_bounds days).2

theorem isValid_ofDays : (ofDays days).isValid = true := by
  obtain ⟨-, -, hfirst, hend, hlast⟩ := yearOfDays_spec days
  rw [ofDays_eq]
  apply isValid_ofMarch
  · omega
  · omega
  · intro h
    have hleap := hlast (by omega)
    generalize yearOfDays days = year at hleap
    generalize cycleOfDays days = cycle
    clear hfirst hend hlast h
    simp only [isLeapYear, decide_eq_true_eq, Bool.and_eq_true, Bool.or_eq_true]
    omega

theorem toDays_ofDays : (ofDays days).toDays = days := by
  obtain ⟨hyear₀, hyear₃₉₉, hfirst, hend, -⟩ := yearOfDays_spec days
  rw [ofDays_eq, toDays_ofMarch (by omega) (by omega)]
  have hcycle : (yearOfDays days + cycleOfDays days * 400) / 400 = cycleOfDays days := by omega
  rw [hcycle]
  have hday : dayOfCycle days = days + 719468 - cycleOfDays days * 146097 := rfl
  have hyear : yearOfDays days + cycleOfDays days * 400 - cycleOfDays days * 400 =
      yearOfDays days := by omega
  rw [hyear, hday]
  omega

theorem isDayInRange_iff :
    isDayInRange days = true ↔ -96465292 ≤ days ∧ days ≤ 95026236 := by
  simp [isDayInRange, toDays, minYear, maxYear]

/-- The years of the days in range are in range. -/
theorem year_ofDays (h : isDayInRange days = true) :
    minYear ≤ (ofDays days).year ∧ (ofDays days).year ≤ maxYear := by
  rw [isDayInRange_iff] at h
  obtain ⟨hyear₀, hyear₃₉₉, hfirst, hend, -⟩ := yearOfDays_spec days
  have hday : dayOfCycle days = days + 719468 - cycleOfDays days * 146097 := rfl
  have hlow : 0 ≤ dayOfCycle days - daysBefore (yearOfDays days) := by omega
  have hhigh : dayOfCycle days - daysBefore (yearOfDays days) ≤ 365 := by omega
  rw [ofDays_eq, year_ofMarch hlow hhigh, minYear, maxYear]
  clear hlow hhigh
  generalize yearOfDays days = year at *
  generalize cycleOfDays days = cycle at *
  generalize dayOfCycle days = day at *
  constructor
  · have hcycle : cycle = -656 ∨ -655 ≤ cycle := by
      simp only [daysBefore] at *
      omega
    split <;> simp only [daysBefore] at * <;> omega
  · have hcycle : cycle = 655 ∨ cycle ≤ 654 := by
      simp only [daysBefore] at *
      omega
    split <;> simp only [daysBefore] at * <;> omega

end Days

end Abacus.Date
