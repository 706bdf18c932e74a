/-!
# Hexadecimal digits

Numbers as hexadecimal digits of a fixed count, most significant first, and the
value of a single digit.
-/

namespace ExposureKit.Hex

/-- The lower-case digit of a number below sixteen. -/
def lowerDigit (n : Nat) : Char := Nat.digitChar n

/-- The upper-case digit of a number below sixteen. -/
def upperDigit (n : Nat) : Char := (Nat.digitChar n).toUpper

/-- The last `width` hexadecimal digits of `n`, written by `digit`. -/
def digits (digit : Nat → Char) : (width : Nat) → (n : Nat) → List Char
  | 0, _ => []
  | width + 1, n => digits digit width (n / 16) ++ [digit (n % 16)]

/-- The two lower-case digits of a byte. -/
def lowerByte (b : UInt8) : List Char := digits lowerDigit 2 b.toNat

/-- The two upper-case digits of a byte. -/
def upperByte (b : UInt8) : List Char := digits upperDigit 2 b.toNat

/-- The value of a hexadecimal digit of either case. -/
def value? (c : Char) : Option Nat :=
  if '0' ≤ c ∧ c ≤ '9' then some (c.toNat - 48)
  else if 'a' ≤ c ∧ c ≤ 'f' then some (c.toNat - 87)
  else if 'A' ≤ c ∧ c ≤ 'F' then some (c.toNat - 55)
  else none

/-- The byte that two digits write. -/
def byte? (high low : Char) : Option UInt8 := do
  let h ← value? high
  let l ← value? low
  pure (UInt8.ofNat (16 * h + l))

theorem length_digits (digit : Nat → Char) (width n : Nat) :
    (digits digit width n).length = width := by
  induction width generalizing n with
  | zero => rfl
  | succ width ih => rw [digits, List.length_append, ih, List.length_singleton]

/-- A digit is read as the number that it was written for. -/
theorem value?_lowerDigit {n : Nat} (hn : n < 16) : value? (lowerDigit n) = some n := by
  have hdigits : ∀ n < 16, value? (lowerDigit n) = some n := by decide
  exact hdigits n hn

theorem value?_upperDigit {n : Nat} (hn : n < 16) : value? (upperDigit n) = some n := by
  have hdigits : ∀ n < 16, value? (upperDigit n) = some n := by decide
  exact hdigits n hn

/-- A byte has a digit for its upper half and one for its lower half. -/
theorem digits_two (digit : Nat → Char) (b : UInt8) :
    digits digit 2 b.toNat = [digit (b.toNat / 16), digit (b.toNat % 16)] := by
  have hb := b.toNat_lt
  rw [digits, digits, digits, List.nil_append, Nat.mod_eq_of_lt (by omega)]
  rfl

theorem lowerByte_eq (b : UInt8) :
    lowerByte b = [lowerDigit (b.toNat / 16), lowerDigit (b.toNat % 16)] :=
  digits_two lowerDigit b

theorem upperByte_eq (b : UInt8) :
    upperByte b = [upperDigit (b.toNat / 16), upperDigit (b.toNat % 16)] :=
  digits_two upperDigit b

/-- A byte is read from its two digits, in either case. -/
theorem byte?_digits {digit : Nat → Char} (hdigit : ∀ n < 16, value? (digit n) = some n)
    (b : UInt8) : byte? (digit (b.toNat / 16)) (digit (b.toNat % 16)) = some b := by
  have hb := b.toNat_lt
  unfold byte?
  rw [hdigit _ (show b.toNat / 16 < 16 by omega), hdigit _ (Nat.mod_lt _ (by decide))]
  show some (UInt8.ofNat (16 * (b.toNat / 16) + b.toNat % 16)) = some b
  rw [Nat.div_add_mod, UInt8.ofNat_toNat]

theorem byte?_lowerDigit (b : UInt8) :
    byte? (lowerDigit (b.toNat / 16)) (lowerDigit (b.toNat % 16)) = some b :=
  byte?_digits (fun _ hn => value?_lowerDigit hn) b

theorem byte?_upperDigit (b : UInt8) :
    byte? (upperDigit (b.toNat / 16)) (upperDigit (b.toNat % 16)) = some b :=
  byte?_digits (fun _ hn => value?_upperDigit hn) b

end ExposureKit.Hex
