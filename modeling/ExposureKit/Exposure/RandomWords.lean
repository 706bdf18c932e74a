/-!
# Random words

A source of random numbers is an endless sequence of 32-bit words and the position
of the next one. A number below `range` is the high half of a word times `range`;
when the low half is too close to its end, a second word decides whether to carry.
-/

namespace ExposureKit

/-- An endless sequence of words, read from a position on. -/
structure RandomWords where
  /-- The word at each position. -/
  word : Nat → UInt32
  /-- The position of the next word; so many have been drawn. -/
  drawn : Nat

namespace RandomWords

/-- The sequence, nothing of it drawn. -/
def ofSequence (word : Nat → UInt32) : RandomWords := ⟨word, 0⟩

/-- Draws the next word. -/
def next (words : RandomWords) : UInt32 × RandomWords :=
  (words.word words.drawn, { words with drawn := words.drawn + 1 })

/-- The values of a word. -/
def wordCount : Nat := UInt32.size

/-- Draws a number below `range`, taking one word or two. -/
def below (range : Nat) (words : RandomWords) : Nat × RandomWords :=
  let (word, words) := words.next
  let high := word.toNat * range / wordCount
  let low := word.toNat * range % wordCount
  if wordCount - range < low then
    let (word, words) := words.next
    let carry := if wordCount ≤ low + word.toNat * range / wordCount then 1 else 0
    (high + carry, words)
  else (high, words)

end RandomWords

end ExposureKit
