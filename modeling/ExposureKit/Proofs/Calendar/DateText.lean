import Mathlib.Algebra.Group.Nat.Defs
import Mathlib.Logic.Function.Basic
import Mathlib.Tactic.SplitIfs
import ExposureKit.Calendar.Date

/-!
# Texts of dates read back

The text of a year may have any length, as years beyond four digits have a sign and as many
digits as they need.  Month and day have two digits each, so that they are found from the end
and the year is all that stands before them.

* `readYear?_yearText`: a year reads back.
* `read?_text`, `text_injective`: so does a date, and no two dates have one text.
-/

namespace ExposureKit.Date

/-! ## Years -/

/-- A text that begins with a digit is that of a year without a sign. -/
theorem readYear?_of_isDigit {c : Char} (hc : c.isDigit = true) {rest : List Char} {n : Nat}
    (hread : Decimal.read? (c :: rest) = some n) : readYear? (c :: rest) = some (n : Int) := by
  rw [readYear?]
  · rw [hread]
    rfl
  · intro digits h
    rw [(List.cons.inj h).1] at hc
    exact absurd hc (by decide)
  · intro digits h
    rw [(List.cons.inj h).1] at hc
    exact absurd hc (by decide)

/-- A year is read from its text. -/
theorem readYear?_yearText (year : Int) : readYear? (yearText year) = some year := by
  unfold yearText
  by_cases hplain : 0 ≤ year ∧ year ≤ 9999
  · rw [if_pos hplain]
    obtain ⟨c, rest, hpadded, hc⟩ := Decimal.exists_padded_eq_cons 4 year.toNat
    rw [hpadded, readYear?_of_isDigit hc (hpadded ▸ Decimal.read?_padded 4 year.toNat),
      Int.toNat_of_nonneg hplain.1]
  · rw [if_neg hplain]
    by_cases hsign : year < 0
    · rw [if_pos hsign, readYear?, Decimal.read?_padded]
      show some (-(year.natAbs : Int)) = some year
      rw [Int.ofNat_natAbs_of_nonpos (Int.le_of_lt hsign), Int.neg_neg]
    · rw [if_neg hsign, readYear?, Decimal.read?_padded]
      show some (year.natAbs : Int) = some year
      rw [Int.natAbs_of_nonneg (Int.not_lt.1 hsign)]

/-! ## Dates -/

/-- So many digits are enough for a number below this power of ten. -/
theorem length_padded_of_lt {width n : Nat} (hwidth : 0 < width) (hn : n < 10 ^ width) :
    (Decimal.padded width n).length = width :=
  Decimal.length_padded ((Nat.length_toDigits_le_iff (by decide) hwidth).2 hn)

/-- Two digits are enough for a month or a day. -/
theorem length_padded_two {n : Nat} (hn : n < 100) : (Decimal.padded 2 n).length = 2 :=
  length_padded_of_lt (by decide) hn

theorem month_lt (date : Date) : date.month < 100 := by
  obtain ⟨-, -, -, hmonth, -⟩ := date.dateExists
  omega

theorem day_lt (date : Date) : date.day < 100 := by
  obtain ⟨-, -, -, -, -, hday⟩ := date.dateExists
  have hdays : daysInMonth date.year date.month ≤ 31 := by
    unfold daysInMonth
    split_ifs <;> decide
  omega

/-- Month and day take the last four characters. -/
theorem length_text (date : Date) : date.text.length = (yearText date.year).length + 4 := by
  rw [text, List.length_append, List.length_append, length_padded_two date.month_lt,
    length_padded_two date.day_lt]

/-- Eight characters are enough for the dates of years of four digits, and of no others. -/
theorem length_text_eq_iff (date : Date) :
    date.text.length = 8 ↔ 0 ≤ date.year ∧ date.year ≤ 9999 := by
  rw [length_text]
  unfold yearText
  split
  · next hplain =>
    have hdigits : date.year.toNat < 10 ^ 4 := by omega
    rw [length_padded_of_lt (by decide) hdigits]
    exact iff_of_true rfl hplain
  · next hplain =>
    have hpadded := Decimal.le_length_padded 4 date.year.natAbs
    rw [List.length_cons]
    exact iff_of_false (by omega) hplain

theorem eight_le_length_text (date : Date) : 8 ≤ date.text.length := by
  rw [length_text]
  unfold yearText
  split
  · exact Nat.add_le_add_right (Decimal.le_length_padded 4 _) 4
  · rw [List.length_cons]
    exact Nat.add_le_add_right (Nat.le_succ_of_le (Decimal.le_length_padded 4 _)) 4

/-- A date is read from its text. -/
theorem read?_text (date : Date) : read? date.text = some date := by
  have hmonth := length_padded_two date.month_lt
  have hday := length_padded_two date.day_lt
  have hlength : date.text.length - 4 = (yearText date.year).length := by
    rw [length_text, Nat.add_sub_cancel]
  have htake : date.text.take (date.text.length - 4) = yearText date.year := by
    rw [hlength, text, List.append_assoc, List.take_left]
  have hdrop : date.text.drop (date.text.length - 4) =
      Decimal.padded 2 date.month ++ Decimal.padded 2 date.day := by
    rw [hlength, text, List.append_assoc, List.drop_left]
  unfold read?
  simp only [htake, hdrop]
  rw [List.take_left' hmonth, List.drop_left' hmonth, readYear?_yearText, Decimal.read?_padded,
    Decimal.read?_padded]
  show ofNumbers? date.year date.month date.day = some date
  unfold ofNumbers?
  rw [dif_pos date.dateExists]

theorem text_injective : Function.Injective text := by
  intro date other h
  have hread := read?_text date
  rw [h, read?_text other] at hread
  exact (Option.some.inj hread).symm

end ExposureKit.Date
