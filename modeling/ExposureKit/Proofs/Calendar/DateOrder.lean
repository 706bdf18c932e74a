import ExposureKit.Proofs.Calendar.DateText
import ExposureKit.Proofs.Calendar.DayNumbers

/-!
# The order of dates and of their texts

Texts are compared byte by byte.  Where they are numerals of one length, that is the order of the
numbers that they write (`utf8_lt_iff_of_digits`): the first digit that differs decides in both
ways.  The text of a date whose year has four digits is such a numeral, of the number that has the
year in front, then two digits for the month and two for the day (`ofDigitChars_text`), so that the
texts of these dates are in the order of the dates (`utf8_text_lt_iff`).
-/

namespace ExposureKit

/-- The bytes of a text in UTF-8. -/
def utf8 (text : String) : List UInt8 := text.toUTF8.data.toList

variable {text other : List Char} {c d : Char}

/-! ## Digits -/

/-- The number of a digit. -/
def digitValue (c : Char) : Nat := c.toNat - '0'.toNat

theorem toNat_of_isDigit (hc : c.isDigit = true) : 48 ≤ c.toNat ∧ c.toNat ≤ 57 :=
  Char.isDigit_iff_toNat.1 hc

theorem digitValue_le (hc : c.isDigit = true) : digitValue c ≤ 9 := by
  obtain ⟨-, hnine⟩ := toNat_of_isDigit hc
  exact Nat.sub_le_sub_right hnine '0'.toNat

/-- A digit takes one byte. -/
theorem utf8_cons_of_isDigit (hc : c.isDigit = true) (text : List Char) :
    utf8 (String.ofList (c :: text)) = UInt8.ofNat c.toNat :: utf8 (String.ofList text) := by
  have hbyte : String.utf8EncodeChar c = [UInt8.ofNat c.toNat] := by
    obtain ⟨-, hnine⟩ := toNat_of_isDigit hc
    have hsmall : c.val.toNat ≤ 127 := hnine.trans (by decide)
    rw [String.utf8EncodeChar, if_pos hsmall]
    rfl
  unfold utf8 String.toUTF8
  rw [String.toByteArray_ofList, String.toByteArray_ofList, List.utf8Encode, List.utf8Encode,
    List.toList_data_toByteArray, List.toList_data_toByteArray, List.flatMap_cons, hbyte,
    List.singleton_append]

/-- The bytes of digits are in the order of the digits. -/
theorem byte_lt_iff_of_isDigit (hc : c.isDigit = true) (hd : d.isDigit = true) :
    UInt8.ofNat c.toNat < UInt8.ofNat d.toNat ↔ digitValue c < digitValue d := by
  have hc := toNat_of_isDigit hc
  have hd := toNat_of_isDigit hd
  have hzero : '0'.toNat = 48 := rfl
  rw [UInt8.lt_iff_toNat_lt, UInt8.toNat_ofNat', UInt8.toNat_ofNat', digitValue, digitValue, hzero]
  omega

theorem byte_eq_iff_of_isDigit (hc : c.isDigit = true) (hd : d.isDigit = true) :
    UInt8.ofNat c.toNat = UInt8.ofNat d.toNat ↔ digitValue c = digitValue d := by
  have hc := toNat_of_isDigit hc
  have hd := toNat_of_isDigit hd
  have hzero : '0'.toNat = 48 := rfl
  rw [← UInt8.toNat_inj, UInt8.toNat_ofNat', UInt8.toNat_ofNat', digitValue, digitValue, hzero]
  omega

/-! ## Numerals of one length -/

/-- The first digit counts for more than all digits behind it. -/
theorem ofDigitChars_cons (c : Char) (text : List Char) :
    Nat.ofDigitChars 10 (c :: text) 0 =
      10 ^ text.length * digitValue c + Nat.ofDigitChars 10 text 0 := by
  rw [Nat.ofDigitChars_cons, Nat.ofDigitChars_eq_ofDigitChars_zero, Nat.mul_zero, Nat.zero_add,
    digitValue]

theorem ofDigitChars_lt (hdigits : ∀ c ∈ text, c.isDigit = true) :
    Nat.ofDigitChars 10 text 0 < 10 ^ text.length := by
  induction text with
  | nil => decide
  | cons c text ih =>
    obtain ⟨hc, htext⟩ := List.forall_mem_cons.1 hdigits
    calc Nat.ofDigitChars 10 (c :: text) 0
        = 10 ^ text.length * digitValue c + Nat.ofDigitChars 10 text 0 := ofDigitChars_cons c text
      _ < 10 ^ text.length * 9 + 10 ^ text.length :=
          Nat.add_lt_add_of_le_of_lt (Nat.mul_le_mul_left _ (digitValue_le hc)) (ih htext)
      _ = 10 ^ (c :: text).length := by
          rw [List.length_cons, Nat.pow_succ]
          omega

/-- Numbers in two places are compared by the first place, and then by the second. -/
theorem mul_add_lt_mul_add_iff {size high low high' low' : Nat} (hlow : low < size)
    (hlow' : low' < size) :
    size * high + low < size * high' + low' ↔ high < high' ∨ high = high' ∧ low < low' := by
  rcases Nat.lt_trichotomy high high' with hlt | rfl | hgt
  · have hstep : size * (high + 1) ≤ size * high' := Nat.mul_le_mul_left size hlt
    rw [Nat.mul_add, Nat.mul_one] at hstep
    omega
  · simp
  · have hstep : size * (high' + 1) ≤ size * high := Nat.mul_le_mul_left size hgt
    rw [Nat.mul_add, Nat.mul_one] at hstep
    omega

/-- Numerals of one length are in the order of their numbers. -/
theorem utf8_lt_iff_of_digits (htext : ∀ c ∈ text, c.isDigit = true)
    (hother : ∀ c ∈ other, c.isDigit = true) (hlength : text.length = other.length) :
    utf8 (String.ofList text) < utf8 (String.ofList other) ↔
      Nat.ofDigitChars 10 text 0 < Nat.ofDigitChars 10 other 0 := by
  induction text generalizing other with
  | nil =>
    obtain rfl : other = [] := List.eq_nil_of_length_eq_zero hlength.symm
    decide
  | cons c text ih =>
    cases other with
    | nil => simp at hlength
    | cons d other =>
      obtain ⟨hc, htext⟩ := List.forall_mem_cons.1 htext
      obtain ⟨hd, hother⟩ := List.forall_mem_cons.1 hother
      have hlength : text.length = other.length := by simpa using hlength
      have hlow := ofDigitChars_lt htext
      have hlow' := ofDigitChars_lt hother
      rw [← hlength] at hlow'
      rw [utf8_cons_of_isDigit hc, utf8_cons_of_isDigit hd, List.cons_lt_cons_iff,
        byte_lt_iff_of_isDigit hc hd, byte_eq_iff_of_isDigit hc hd, ih htext hother hlength,
        ofDigitChars_cons, ofDigitChars_cons, ← hlength, mul_add_lt_mul_add_iff hlow hlow']

/-! ## Dates -/

namespace Date

variable {date later : Date}

/-- The texts of these dates are numerals. -/
theorem isDigit_of_mem_text (hyear : 0 ≤ date.year ∧ date.year ≤ 9999) (hc : c ∈ date.text) :
    c.isDigit = true := by
  rw [text, yearText, if_pos hyear] at hc
  simp only [List.mem_append] at hc
  rcases hc with (hc | hc) | hc <;> exact Decimal.isDigit_of_mem_padded hc

/-- The number that such a date writes. -/
theorem ofDigitChars_text (hyear : 0 ≤ date.year ∧ date.year ≤ 9999) :
    Nat.ofDigitChars 10 date.text 0 = 10000 * date.year.toNat + 100 * date.month + date.day := by
  have hmonth : Nat.ofDigitChars 10 (Decimal.padded 2 date.month) date.year.toNat =
      100 * date.year.toNat + date.month := by
    rw [Nat.ofDigitChars_eq_ofDigitChars_zero, length_padded_two date.month_lt,
      Decimal.ofDigitChars_padded]
  rw [text, yearText, if_pos hyear, Nat.ofDigitChars_append, Nat.ofDigitChars_append,
    Decimal.ofDigitChars_padded, hmonth, Nat.ofDigitChars_eq_ofDigitChars_zero,
    length_padded_two date.day_lt, Decimal.ofDigitChars_padded]
  omega

/-- The texts of dates whose years have four digits are in the order of the dates. -/
theorem utf8_text_lt_iff (hdate : 0 ≤ date.year ∧ date.year ≤ 9999)
    (hlater : 0 ≤ later.year ∧ later.year ≤ 9999) :
    utf8 (String.ofList date.text) < utf8 (String.ofList later.text) ↔ date < later := by
  have hlength : date.text.length = later.text.length := by
    rw [(length_text_eq_iff date).2 hdate, (length_text_eq_iff later).2 hlater]
  rw [utf8_lt_iff_of_digits (fun _ hc => isDigit_of_mem_text hdate hc)
    (fun _ hc => isDigit_of_mem_text hlater hc) hlength, ofDigitChars_text hdate,
    ofDigitChars_text hlater, Date.lt_iff]
  -- months and days fill two places each, so that none of them runs over into the next
  have hmonth := date.month_lt
  have hday := date.day_lt
  have hmonth' := later.month_lt
  have hday' := later.day_lt
  omega

end Date

end ExposureKit
