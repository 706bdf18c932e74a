/-!
# Control sequences

A text that is written to a terminal may hold control characters and the sequences that
an escape begins. `withoutControls` is what remains of it when they are taken out: blanks
of ASCII stay, also those in the middle of a sequence that does not claim them, and all
that is not ASCII stays outside of sequences.
-/

namespace ExposureKit

/-- Where in a sequence a text stands. -/
inductive SequencePlace where
  /-- After the escape. -/
  | escape
  /-- After intermediate characters that follow the escape. -/
  | escapeIntermediate
  /-- In a control sequence, which a letter or the like ends. -/
  | control
  /-- At the first character of a device control. -/
  | deviceEntry
  /-- Among the parameters of a device control. -/
  | deviceParameter
  /-- Among the intermediate characters of a device control. -/
  | deviceIntermediate
  /-- In the string of a device control, or in a string of another kind. -/
  | string
  /-- In a system command. -/
  | systemCommand
  deriving DecidableEq, Repr

namespace SequencePlace

/-! ## Classes of characters -/

/-- The code point lies between two others. -/
def within (first last : Nat) (c : Char) : Bool := first ≤ c.toNat && c.toNat ≤ last

/-- The character that begins every sequence. -/
def escapeChar : Char := '\x1b'

/-- A blank of ASCII that is written like a printable character. -/
def isLayout (c : Char) : Bool := c == '\t' || c == '\n' || c == '\x0c' || c == '\r'

/-- A character that breaks off any sequence. -/
def isCancel (c : Char) : Bool := c == '\x18' || c == '\x1a'

/-- A character that ASCII has no place for. -/
def isWide (c : Char) : Bool := 0x80 ≤ c.toNat

/-- A printable character of ASCII, or a blank of it. -/
def isPlain (c : Char) : Bool := within 0x20 0x7E c || isLayout c

/-- The byte `0x9C` is one of those that encode the character: it ends a string. -/
def holdsTerminator (c : Char) : Bool := (String.singleton c).toUTF8.toList.contains 0x9C

/-! ## Steps inside a sequence -/

/-- The places in which a blank is written rather than dropped. -/
def writesLayout : SequencePlace → Bool
  | .escape | .escapeIntermediate | .control => true
  | _ => false

/-- The place after one more printable character of ASCII; nothing when the sequence
ends with it. -/
def next? (c : Char) : SequencePlace → Option SequencePlace
  | .escape =>
    if within 0x20 0x2F c then some .escapeIntermediate
    else if c = '[' then some .control
    else if c = ']' then some .systemCommand
    else if c = 'P' then some .deviceEntry
    else if c = 'X' ∨ c = '^' ∨ c = '_' then some .string
    else none
  | .escapeIntermediate => if within 0x20 0x2F c then some .escapeIntermediate else none
  | .control => if within 0x20 0x3F c then some .control else none
  | .deviceEntry =>
    if within 0x20 0x2F c then some .deviceIntermediate
    else if within 0x30 0x3F c then some .deviceParameter
    else some .string
  | .deviceParameter =>
    if within 0x20 0x2F c then some .deviceIntermediate
    else if within 0x30 0x3B c then some .deviceParameter
    else some .string
  | .deviceIntermediate =>
    if within 0x20 0x2F c then some .deviceIntermediate else some .string
  | .string => some .string
  | .systemCommand => some .systemCommand

/-- The place after a control character or one that is not ASCII; nothing when the
sequence ends with it. -/
def nextUnusual? (c : Char) (place : SequencePlace) : Option SequencePlace :=
  match place with
  | .string => if holdsTerminator c then none else some .string
  | .systemCommand => if c = '\x07' then none else some .systemCommand
  | _ => some place

end SequencePlace

/-! ## Scanning a text -/

/-- Where a text stands with respect to sequences. -/
inductive TextPlace where
  /-- Outside of sequences. -/
  | outside
  /-- In a sequence. -/
  | inside (place : SequencePlace)
  /-- In what is written in the middle of a sequence, from a blank in it on. -/
  | interrupting (place : SequencePlace)
  deriving DecidableEq, Repr

namespace TextPlace

open SequencePlace

/-- The place inside a sequence, or outside when there is none any more. -/
def ofSequence : Option SequencePlace → TextPlace
  | some place => .inside place
  | none => .outside

/-- The place after a character, and whether the character is written. -/
def step (c : Char) : TextPlace → TextPlace × Bool
  | .outside =>
    if c = escapeChar then (.inside .escape, false) else (.outside, isPlain c || isWide c)
  | .inside place =>
    if c = escapeChar then (.inside .escape, false)
    else if isCancel c then (.outside, false)
    else if isLayout c && place.writesLayout then (.interrupting place, true)
    else if within 0x20 0x7E c then (ofSequence (place.next? c), false)
    else (ofSequence (place.nextUnusual? c), false)
  | .interrupting place =>
    if c = escapeChar then (.inside .escape, false)
    else if isCancel c then (.outside, false)
    else if isWide c then (.outside, true)
    else if isPlain c then (.interrupting place, true)
    else (.inside place, false)

/-- What is written of a text that begins at a place. -/
def written (place : TextPlace) : List Char → List Char
  | [] => []
  | c :: text =>
    let (next, isWritten) := place.step c
    if isWritten then c :: written next text else written next text

end TextPlace

/-- The text without its control characters and its sequences. -/
def withoutControls (text : String) : String :=
  String.ofList (TextPlace.outside.written text.toList)

end ExposureKit
