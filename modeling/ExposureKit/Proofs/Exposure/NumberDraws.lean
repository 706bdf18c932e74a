import Mathlib.Algebra.Group.Nat.Defs
import ExposureKit.Exposure.RandomWords

/-!
# Numbers drawn from random words

`Draws` says which number is drawn below a range and how many words that takes.  The carry that a
second word decides stays inside the range: where a second word is drawn, the first one was not
large enough for the last number of the range (`Draws.lt`).
-/

namespace ExposureKit.RandomWords

/-- The word so many places after the next one. -/
def ahead (words : RandomWords) (count : Nat) : UInt32 := words.word (words.drawn + count)

/-- The same words, so many of them drawn. -/
def skip (words : RandomWords) (count : Nat) : RandomWords :=
  { words with drawn := words.drawn + count }

/-- The next word times the range. -/
def product (words : RandomWords) (range : Nat) : Nat := (words.ahead 0).toNat * range

/-- A number is drawn below `range`, and takes so many words. -/
inductive Draws (range : Nat) (words : RandomWords) : (number taken : Nat) → Prop
  /-- It is the high half of the product, if the low half is not too close to its end. -/
  | one (hlow : words.product range % 2 ^ 32 ≤ 2 ^ 32 - range) :
      Draws range words (words.product range / 2 ^ 32) 1
  /-- Else a second word tells whether the low half overflows, and the high half is one more if it
  does. -/
  | two (hlow : 2 ^ 32 - range < words.product range % 2 ^ 32) :
      Draws range words (words.product range / 2 ^ 32 +
        if 2 ^ 32 ≤ words.product range % 2 ^ 32 + (words.ahead 1).toNat * range / 2 ^ 32 then 1
        else 0) 2

variable {range number taken : Nat} {words : RandomWords}

/-- What is drawn below a range is below it. -/
theorem Draws.lt (h : words.Draws range number taken) (hrange : 0 < range) : number < range := by
  have hword : (words.ahead 0).toNat < 2 ^ 32 := (words.ahead 0).toNat_lt
  have hproduct : words.product range ≤ (2 ^ 32 - 1) * range :=
    Nat.mul_le_mul_right range (Nat.le_sub_one_of_lt hword)
  have hhalves := Nat.div_add_mod (words.product range) (2 ^ 32)
  cases h with
  | one => omega
  | two hlow =>
    -- the last number of the range would leave less for the low half than it has
    have hhigh : words.product range / 2 ^ 32 + 1 < range := by omega
    split <;> omega

/-- A number is drawn from one word or two, and nothing else happens to the words. -/
theorem below_draws (range : Nat) (words : RandomWords) :
    ∃ taken, words.Draws range (words.below range).1 taken ∧
      (words.below range).2 = words.skip taken := by
  by_cases hlow : words.product range % 2 ^ 32 ≤ 2 ^ 32 - range
  · have hbelow : words.below range = (words.product range / 2 ^ 32, words.skip 1) :=
      if_neg (Nat.not_lt.2 hlow)
    rw [hbelow]
    exact ⟨1, .one hlow, rfl⟩
  · have hbelow : words.below range =
        (words.product range / 2 ^ 32 +
          if 2 ^ 32 ≤ words.product range % 2 ^ 32 + (words.ahead 1).toNat * range / 2 ^ 32 then 1
          else 0, words.skip 2) := if_pos (Nat.not_le.1 hlow)
    rw [hbelow]
    exact ⟨2, .two (Nat.not_le.1 hlow), rfl⟩

end ExposureKit.RandomWords
