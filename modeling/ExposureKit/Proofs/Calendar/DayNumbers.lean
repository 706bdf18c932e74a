import Mathlib
import ExposureKit.Calendar.Date

/-!
# Days and their numbers

A date is told by its month and its day in it.  Months are counted from March of the year 0
(`monthIndex`), and each begins where the one before it ends (`monthStart_succ`): this is the one
fact on the calendar that the others rest on.  So dates have numbers in their order
(`dayNumber_lt_iff`), and the number of a day gives the date back (`ofDayNumber?_eq_some_iff`).
-/

namespace ExposureKit

/-! ## Leap years and months -/

/-- A year is a leap year if 4 divides it and 100 does not, or if 400 does. -/
theorem isLeap_iff (year : Int) :
    isLeap year = true ↔ 4 ∣ year ∧ ¬100 ∣ year ∨ 400 ∣ year := by
  simp only [isLeap, Bool.and_eq_true, beq_iff_eq, Bool.or_eq_true, bne_iff_ne]
  omega

theorem daysInMonth_pos (year : Int) (month : Nat) : 0 < daysInMonth year month := by
  unfold daysInMonth
  split_ifs <;> decide

namespace Date

/-- The number of 1 March of a year. -/
def yearStart (year : Int) : Int := 365 * year + year / 4 - year / 100 + year / 400

/-- The number of the first day of a month, which is counted from March of the year 0. -/
def monthStart (index : Int) : Int := yearStart (index / 12) + (153 * (index % 12) + 2) / 5

/-- The year in which a month is. -/
def yearOf (index : Int) : Int := (index + 2) / 12

/-- A month by its place in its year, from 1. -/
def monthOf (index : Int) : Nat := ((index + 2) % 12).toNat + 1

/-- A month is told by its year and its place in the year. -/
theorem yearOf_monthOf_iff {index year : Int} {month : Nat} (hlow : 1 ≤ month)
    (hhigh : month ≤ 12) :
    yearOf index = year ∧ monthOf index = month ↔ index = 12 * year + month - 3 := by
  unfold yearOf monthOf
  omega

/-- From one March to the next there is a leap day if the year that begins between is a leap
year. -/
theorem yearStart_succ (year : Int) :
    yearStart (year + 1) = yearStart year + 337 + daysInMonth (year + 1) 2 := by
  have hleap := isLeap_iff (year + 1)
  unfold yearStart daysInMonth
  rw [if_pos rfl]
  split_ifs with h
  · have := hleap.1 h
    omega
  · have := mt hleap.2 h
    omega

/-- The months of a year from March on begin so many days after it. -/
theorem monthStart_add (year : Int) {month : Int} (hlow : 0 ≤ month) (hhigh : month < 12) :
    monthStart (12 * year + month) = yearStart year + (153 * month + 2) / 5 := by
  have hyear : (12 * year + month) / 12 = year := by omega
  have hmonth : (12 * year + month) % 12 = month := by omega
  rw [monthStart, hyear, hmonth]

/-- Each month begins where the one before it ends. -/
theorem monthStart_succ (index : Int) :
    monthStart (index + 1) = monthStart index + daysInMonth (yearOf index) (monthOf index) := by
  obtain ⟨year, month, hlow, hhigh, rfl⟩ : ∃ year month : Int, 0 ≤ month ∧ month < 12 ∧
      index = 12 * year + month := ⟨index / 12, index % 12, by omega, by omega, by omega⟩
  by_cases hlast : month = 11
  · -- February ends the year that began in March
    obtain ⟨hyearOf, hmonthOf⟩ :
        yearOf (12 * year + month) = year + 1 ∧ monthOf (12 * year + month) = 2 :=
      (yearOf_monthOf_iff (by decide) (by decide)).2 (by omega)
    have hnext : 12 * year + month + 1 = 12 * (year + 1) + 0 := by omega
    rw [hyearOf, hmonthOf, hnext, monthStart_add (year + 1) (by omega) (by omega),
      monthStart_add year hlow hhigh, yearStart_succ, hlast]
    omega
  · have hmonthOf : monthOf (12 * year + month) = ((month + 2) % 12).toNat + 1 := by
      unfold monthOf
      omega
    rw [hmonthOf, add_assoc, monthStart_add year (by omega) (by omega),
      monthStart_add year hlow hhigh]
    -- of the other months each has its length in every year
    unfold daysInMonth
    interval_cases month <;> simp at hlast ⊢ <;> omega

theorem monthStart_strictMono : StrictMono monthStart :=
  strictMono_int_of_lt_succ fun index => by
    have := daysInMonth_pos (yearOf index) (monthOf index)
    rw [monthStart_succ]
    omega

/-- A day of a month comes before all later months. -/
theorem lt_monthStart {index other : Int} {day : Nat} (h : index < other)
    (hday : day ≤ daysInMonth (yearOf index) (monthOf index)) :
    monthStart index + day - 1 < monthStart other := by
  have hnext := monthStart_strictMono.monotone (Int.add_one_le_iff.2 h)
  rw [monthStart_succ] at hnext
  omega

/-! ## The order of dates -/

/-- Dates are in order by their years, then by their months, then by their days. -/
instance : LT Date :=
  ⟨fun date other => date.year < other.year ∨ date.year = other.year ∧
    (date.month < other.month ∨ date.month = other.month ∧ date.day < other.day)⟩

theorem lt_iff {date other : Date} :
    date < other ↔ date.year < other.year ∨ date.year = other.year ∧
      (date.month < other.month ∨ date.month = other.month ∧ date.day < other.day) := Iff.rfl

/-- The month of a date, counted from March of the year 0. -/
def monthIndex (date : Date) : Int := 12 * date.year + date.month - 3

variable {date other : Date}

theorem monthIndex_eq_iff {index : Int} :
    date.monthIndex = index ↔ yearOf index = date.year ∧ monthOf index = date.month := by
  obtain ⟨-, -, hlow, hhigh, -⟩ := date.dateExists
  rw [yearOf_monthOf_iff hlow hhigh]
  exact eq_comm

theorem yearOf_monthIndex (date : Date) : yearOf date.monthIndex = date.year :=
  (monthIndex_eq_iff.1 rfl).1

theorem monthOf_monthIndex (date : Date) : monthOf date.monthIndex = date.month :=
  (monthIndex_eq_iff.1 rfl).2

theorem one_le_day (date : Date) : 1 ≤ date.day := date.dateExists.2.2.2.2.1

theorem day_le (date : Date) :
    date.day ≤ daysInMonth (yearOf date.monthIndex) (monthOf date.monthIndex) := by
  rw [yearOf_monthIndex, monthOf_monthIndex]
  exact date.dateExists.2.2.2.2.2

/-- Days are counted by their months. -/
theorem dayNumber_eq (date : Date) :
    date.dayNumber = monthStart date.monthIndex + date.day - 1 := by
  obtain ⟨-, -, hlow, hhigh, -⟩ := date.dateExists
  unfold dayNumber monthIndex
  dsimp only
  split
  · have hindex : 12 * date.year + (date.month : Int) - 3 = 12 * date.year + (date.month - 3) := by
      omega
    rw [hindex, monthStart_add date.year (by omega) (by omega), yearStart]
    omega
  · have hindex : 12 * date.year + (date.month : Int) - 3 =
        12 * (date.year - 1) + (date.month + 9) := by omega
    rw [hindex, monthStart_add (date.year - 1) (by omega) (by omega), yearStart]
    omega

/-- A date is told by its month and the day in it. -/
theorem eq_of_monthIndex_eq (hindex : date.monthIndex = other.monthIndex)
    (hday : date.day = other.day) : date = other := by
  have hyear : date.year = other.year := by
    rw [← yearOf_monthIndex date, hindex, yearOf_monthIndex]
  have hmonth : date.month = other.month := by
    rw [← monthOf_monthIndex date, hindex, monthOf_monthIndex]
  cases date
  cases other
  cases hyear
  cases hmonth
  cases hday
  rfl

theorem dayNumber_lt_of_lt (h : date < other) : date.dayNumber < other.dayNumber := by
  have hfirst := one_le_day other
  have hcases : date.monthIndex < other.monthIndex ∨
      date.monthIndex = other.monthIndex ∧ date.day < other.day := by
    obtain ⟨-, -, hlow, hhigh, -⟩ := date.dateExists
    obtain ⟨-, -, hotherLow, hotherHigh, -⟩ := other.dateExists
    rw [lt_iff] at h
    unfold monthIndex
    omega
  rw [dayNumber_eq, dayNumber_eq]
  rcases hcases with hindex | ⟨hindex, hday⟩
  · have := lt_monthStart hindex date.day_le
    omega
  · rw [hindex]
    omega

theorem eq_of_not_lt (hdate : ¬date < other) (hother : ¬other < date) : date = other := by
  rw [lt_iff] at hdate hother
  refine eq_of_monthIndex_eq ?_ (by omega)
  unfold monthIndex
  omega

/-- Dates have their numbers in their order. -/
theorem dayNumber_lt_iff : date.dayNumber < other.dayNumber ↔ date < other := by
  refine ⟨fun h => ?_, dayNumber_lt_of_lt⟩
  by_contra hlt
  by_cases hgt : other < date
  · exact Int.lt_asymm h (dayNumber_lt_of_lt hgt)
  · rw [eq_of_not_lt hlt hgt] at h
    exact Int.lt_irrefl _ h

theorem dayNumber_injective : Function.Injective dayNumber := by
  intro date other h
  exact eq_of_not_lt (fun hlt => (dayNumber_lt_of_lt hlt).ne h)
    (fun hgt => (dayNumber_lt_of_lt hgt).ne h.symm)

/-! ## The date of a number -/

/-- The date so many days after 1 March of a year, if the calendar reaches so far. -/
def afterMarch? (year : Int) (days : Nat) : Option Date :=
  let month := (5 * days + 2) / 153
  let day := days - (153 * month + 2) / 5 + 1
  if month < 10 then ofNumbers? year (month + 3) day else ofNumbers? (year + 1) (month - 9) day

/-- A number is that of a day between one March and the next, and the date of that day is looked
up there. -/
theorem exists_ofDayNumber?_eq_afterMarch? (number : Int) :
    ∃ (year : Int) (days : Nat), number = yearStart year + days ∧
      days < 337 + daysInMonth (year + 1) 2 ∧ ofDayNumber? number = afterMarch? year days := by
  unfold ofDayNumber?
  extract_lets inEra century inCentury inCycle yearOfCycle inYear year
  refine ⟨year, inYear, ?_, ?_, rfl⟩
  all_goals
    have hinCentury : inCentury ≤ 36524 := by omega
    have hcycle : inCentury / 1461 ≤ 24 := by omega
  · have hfour : year / 4 = 100 * (number / 146097) + (25 * century + inCentury / 1461 : Nat) := by
      omega
    have hhundred : year / 100 = 4 * (number / 146097) + century := by omega
    have hfourHundred : year / 400 = number / 146097 := by omega
    rw [yearStart, hfour, hhundred, hfourHundred]
    omega
  · -- a cycle of four years, or an era, ends with a leap year
    have hleap := isLeap_iff (year + 1)
    unfold daysInMonth
    rw [if_pos rfl]
    split_ifs with h
    · omega
    · have := mt hleap.2 h
      omega

/-- A day between one March and the next is in one of the months that begin there. -/
theorem exists_afterMarch?_eq {year : Int} {days : Nat}
    (hdays : days < 337 + daysInMonth (year + 1) 2) :
    ∃ (index : Int) (day : Nat), yearStart year + days = monthStart index + day - 1 ∧ 1 ≤ day ∧
      day ≤ daysInMonth (yearOf index) (monthOf index) ∧
      afterMarch? year days = ofNumbers? (yearOf index) (monthOf index) day := by
  have hfebruary : daysInMonth (year + 1) 2 ≤ 29 := by
    unfold daysInMonth
    rw [if_pos rfl]
    split <;> decide
  unfold afterMarch?
  extract_lets month day
  have hstart : yearStart year + days = monthStart (12 * year + month) + day - 1 := by
    rw [monthStart_add year (by omega) (by omega)]
    omega
  have hend : yearStart year + days < monthStart (12 * year + month + 1) := by
    by_cases hlast : month = 11
    · have hnext : 12 * year + (month : Int) + 1 = 12 * (year + 1) + 0 := by omega
      rw [hnext, monthStart_add (year + 1) (by omega) (by omega), yearStart_succ]
      omega
    · rw [add_assoc, monthStart_add year (by omega) (by omega)]
      omega
  refine ⟨12 * year + month, day, hstart, by omega, ?_, ?_⟩
  · rw [monthStart_succ] at hend
    omega
  · split
    · obtain ⟨hyearOf, hmonthOf⟩ :
          yearOf (12 * year + month) = year ∧ monthOf (12 * year + month) = month + 3 :=
        (yearOf_monthOf_iff (by omega) (by omega)).2 (by omega)
      rw [hyearOf, hmonthOf]
    · obtain ⟨hyearOf, hmonthOf⟩ :
          yearOf (12 * year + month) = year + 1 ∧ monthOf (12 * year + month) = month - 9 :=
        (yearOf_monthOf_iff (by omega) (by omega)).2 (by omega)
      rw [hyearOf, hmonthOf]

/-- A number is that of a day in some month, and the date of that day is looked up. -/
theorem exists_ofDayNumber?_eq (number : Int) :
    ∃ (index : Int) (day : Nat), number = monthStart index + day - 1 ∧ 1 ≤ day ∧
      day ≤ daysInMonth (yearOf index) (monthOf index) ∧
      ofDayNumber? number = ofNumbers? (yearOf index) (monthOf index) day := by
  obtain ⟨year, days, rfl, hdays, hyear⟩ := exists_ofDayNumber?_eq_afterMarch? number
  rw [hyear]
  exact exists_afterMarch?_eq hdays

/-- A day is in one month only. -/
theorem eq_of_monthStart_eq {index other : Int} {day otherDay : Nat} (hone : 1 ≤ day)
    (hotherOne : 1 ≤ otherDay) (hday : day ≤ daysInMonth (yearOf index) (monthOf index))
    (hotherDay : otherDay ≤ daysInMonth (yearOf other) (monthOf other))
    (h : monthStart index + day - 1 = monthStart other + otherDay - 1) :
    index = other ∧ day = otherDay := by
  rcases Int.lt_trichotomy index other with hlt | rfl | hgt
  · have := lt_monthStart hlt hday
    omega
  · exact ⟨rfl, by omega⟩
  · have := lt_monthStart hgt hotherDay
    omega

theorem ofNumbers?_eq_some_iff {year : Int} {month day : Nat} :
    ofNumbers? year month day = some date ↔
      date.year = year ∧ date.month = month ∧ date.day = day := by
  unfold ofNumbers?
  constructor
  · intro h
    split at h
    · cases h
      exact ⟨rfl, rfl, rfl⟩
    · cases h
  · rintro ⟨rfl, rfl, rfl⟩
    rw [dif_pos date.dateExists]

/-- The date of a number is the one that has this number. -/
theorem ofDayNumber?_eq_some_iff {number : Int} :
    ofDayNumber? number = some date ↔ date.dayNumber = number := by
  obtain ⟨index, day, rfl, hone, hday, hdate⟩ := exists_ofDayNumber?_eq number
  rw [hdate, ofNumbers?_eq_some_iff, dayNumber_eq]
  constructor
  · rintro ⟨hyear, hmonth, rfl⟩
    rw [monthIndex_eq_iff.2 ⟨hyear.symm, hmonth.symm⟩]
  · intro h
    obtain ⟨rfl, rfl⟩ := eq_of_monthStart_eq date.one_le_day hone date.day_le hday h
    exact ⟨(yearOf_monthIndex date).symm, (monthOf_monthIndex date).symm, rfl⟩

end Date

end ExposureKit
