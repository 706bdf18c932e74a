/-!
# Positions in bytes

A position in a text may be counted in the bytes of its UTF-8 encoding, and such a
position may fall inside a character. `byteSlice?` is the part of a text between two
positions, if both of them fall between characters.
-/

namespace ExposureKit

/-- How many bytes encode a text. -/
def byteLength : List Char → Nat
  | [] => 0
  | c :: text => c.utf8Size + byteLength text

/-- The text without the characters that the first `count` bytes encode. -/
def dropBytes? (count : Nat) : List Char → Option (List Char)
  | [] => if count = 0 then some [] else none
  | c :: text =>
    if count = 0 then some (c :: text)
    else if c.utf8Size ≤ count then dropBytes? (count - c.utf8Size) text
    else none

/-- The characters that the first `count` bytes of a text encode. -/
def takeBytes? (count : Nat) : List Char → Option (List Char)
  | [] => if count = 0 then some [] else none
  | c :: text =>
    if count = 0 then some []
    else if c.utf8Size ≤ count then (takeBytes? (count - c.utf8Size) text).map (c :: ·)
    else none

/-- The part of a text from position `first` up to, not including, position `last`. -/
def byteSlice? (text : List Char) (first last : Nat) : Option (List Char) :=
  (dropBytes? first text).bind (takeBytes? (last - first))

end ExposureKit
