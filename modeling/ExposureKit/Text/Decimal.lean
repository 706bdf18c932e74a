/-!
# Decimal numbers

The decimal digits of natural numbers, plain and padded with zeros, and reading
them back.
-/

namespace ExposureKit.Decimal

/-- The decimal digits of a number, without zeros in front. -/
def digits (n : Nat) : List Char := Nat.toDigits 10 n

/-- The decimal digits of a number, with zeros in front up to `width` digits. -/
def padded (width n : Nat) : List Char :=
  List.replicate (width - (digits n).length) '0' ++ digits n

/-- The value of a text of decimal digits, any number of zeros in front. -/
def read? (text : List Char) : Option Nat :=
  if !text.isEmpty && text.all Char.isDigit then some (Nat.ofDigitChars 10 text 0) else none

theorem digits_ne_nil (n : Nat) : digits n ≠ [] := Nat.toDigits_ne_nil

theorem isDigit_of_mem_digits {n : Nat} {c : Char} (hc : c ∈ digits n) : c.isDigit = true :=
  Nat.isDigit_of_mem_toDigits (by decide) (by decide) hc

theorem isDigit_of_mem_padded {width n : Nat} {c : Char} (hc : c ∈ padded width n) :
    c.isDigit = true := by
  rcases List.mem_append.1 hc with hc | hc
  · rw [List.eq_of_mem_replicate hc]; rfl
  · exact isDigit_of_mem_digits hc

theorem padded_ne_nil (width n : Nat) : padded width n ≠ [] := by
  intro h
  exact digits_ne_nil n (List.append_eq_nil_iff.1 h).2

/-- Padded digits begin with a digit. -/
theorem exists_padded_eq_cons (width n : Nat) :
    ∃ c rest, padded width n = c :: rest ∧ c.isDigit = true := by
  obtain ⟨c, rest, hpadded⟩ := List.exists_cons_of_ne_nil (padded_ne_nil width n)
  have hc : c ∈ padded width n := by
    rw [hpadded]
    exact List.mem_cons_self
  exact ⟨c, rest, hpadded, isDigit_of_mem_padded hc⟩

/-- Padded digits have the value of the number. -/
theorem ofDigitChars_padded (width n : Nat) : Nat.ofDigitChars 10 (padded width n) 0 = n := by
  rw [padded, Nat.ofDigitChars_append, Nat.ofDigitChars_replicate_zero, Nat.mul_zero]
  simp [digits]

/-- Padded digits read back as the number. -/
theorem read?_padded (width n : Nat) : read? (padded width n) = some n := by
  have hne : padded width n ≠ [] := padded_ne_nil width n
  have hall : (padded width n).all Char.isDigit = true :=
    List.all_eq_true.2 fun _ hc => isDigit_of_mem_padded hc
  rw [read?, if_pos (by simp [hne, hall]), ofDigitChars_padded]

/-- Digits read back as the number. -/
theorem read?_digits (n : Nat) : read? (digits n) = some n := by
  have h := read?_padded 0 n
  rwa [padded, Nat.zero_sub, List.replicate_zero, List.nil_append] at h

/-- Only the digits of zero begin with a zero. -/
theorem eq_zero_of_head?_digits {n : Nat} (h : (digits n).head? = some '0') : n = 0 := by
  induction n using Nat.strongRecOn with
  | ind n ih =>
    unfold digits at h ih
    rcases Nat.lt_or_ge n 10 with hlt | hge
    · rw [Nat.toDigits_of_lt_base hlt] at h
      exact Nat.digitChar_eq_zero.1 (Option.some.inj h)
    · obtain ⟨c, rest, hfront⟩ := List.exists_cons_of_ne_nil (digits_ne_nil (n / 10))
      unfold digits at hfront
      rw [Nat.toDigits_of_base_le (by decide) hge, hfront, List.cons_append, List.head?_cons] at h
      have := ih (n / 10) (Nat.div_lt_self (by omega) (by decide)) (by rw [hfront]; exact h)
      omega

theorem le_length_padded (width n : Nat) : width ≤ (padded width n).length := by
  rw [padded, List.length_append, List.length_replicate]
  omega

/-- A number of at most `width` digits is padded to exactly `width` digits. -/
theorem length_padded {width n : Nat} (h : (digits n).length ≤ width) :
    (padded width n).length = width := by
  rw [padded, List.length_append, List.length_replicate]
  omega

end ExposureKit.Decimal
