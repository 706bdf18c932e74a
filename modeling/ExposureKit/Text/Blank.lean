import ExposureKit.Text.CharRange

/-!
# Blank characters

The characters with the Unicode property `White_Space`. Every one of them may
separate words, and `blankToSpace` writes each of them as a plain space.
-/

namespace ExposureKit

/-- The code points with the property `White_Space`. -/
def blankRanges : List CharRange :=
  [(0x09, 0x0D), (0x20, 0x20), (0x85, 0x85), (0xA0, 0xA0), (0x1680, 0x1680), (0x2000, 0x200A),
   (0x2028, 0x2029), (0x202F, 0x202F), (0x205F, 0x205F), (0x3000, 0x3000)]

/-- A character that separates words. -/
def isBlank (c : Char) : Bool := inTable blankRanges c

/-- The character as it is filled into lines: blanks become plain spaces. -/
def blankToSpace (c : Char) : Char := if isBlank c then ' ' else c

theorem isBlank_space : isBlank ' ' = true := by decide

/-- What stands in a line is blank only where it is a plain space. -/
theorem blankToSpace_eq_space_iff {c : Char} : blankToSpace c = ' ' ↔ isBlank c = true := by
  unfold blankToSpace
  split
  · simp [*]
  · next h =>
    refine ⟨?_, fun hb => absurd hb h⟩
    rintro rfl
    exact absurd isBlank_space h

end ExposureKit
