import ExposureKit.Text.Blank
import ExposureKit.Text.Numeric

/-!
# Chunks of text

Lines are filled with chunks: runs of spaces, words, pieces of hyphenated words and
dashes. A text is cut from front to back. Where a chunk ends depends on the characters
`ahead` of it and on those `behind` it, nearest first, which may belong to the chunks
before.
-/

namespace ExposureKit

/-! ## Characters of words -/

/-- A letter: an alphabetic character or the underscore. -/
def isLetter (c : Char) : Bool := isAlphabetic c || c == '_'

/-- A word character: an alphanumeric character or the underscore. -/
def isWordChar (c : Char) : Bool := isAlphanumeric c || c == '_'

/-- A character that a dash may follow: a word character or closing punctuation. -/
def isWordEnd (c : Char) : Bool :=
  isWordChar c || c == '!' || c == '"' || c == '\'' || c == '&' || c == '.' || c == ',' || c == '?'

/-! ## Hyphens and dashes -/

/-- A hyphen may be broken next to these characters, the nearest first: two letters,
which may have one further hyphen between them. -/
def lettersNext : List Char → Bool
  | a :: b :: rest => isLetter a && (isLetter b || (b == '-' && (rest.head?.any isLetter)))
  | _ => false

/-- A word may be cut after a hyphen between these characters, as in `well-known`. -/
def breaksHyphen (behind ahead : List Char) : Bool := lettersNext behind && lettersNext ahead

/-- The length of the dash that begins here: two or more hyphens that follow the end of
a word and join it to the next, as in `foo--bar`. -/
def dashLength? (behind : List Char) : (ahead : List Char) → Option Nat
  | '-' :: '-' :: rest =>
    if behind.head?.any isWordEnd && (rest.dropWhile (· == '-')).head?.any isWordChar then
      some ((rest.takeWhile (· == '-')).length + 2)
    else none
  | _ => none

/-! ## Where a chunk ends -/

/-- The length of a word of which `length` characters have been passed: it ends after a
hyphen that may be broken, and before a space or a dash. -/
def wordLength (length : Nat) (behind : List Char) : (ahead : List Char) → Nat
  | [] => length
  | c :: ahead =>
    if c = ' ' then length
    else if c = '-' && breaksHyphen behind ahead then length + 1
    else if (dashLength? behind (c :: ahead)).isSome then length
    else wordLength (length + 1) (c :: behind) ahead

/-- The length of the chunk that begins here: a run of spaces, a dash, or a word. -/
def chunkLength (behind : List Char) : (ahead : List Char) → Nat
  | [] => 0
  | c :: ahead =>
    if c = ' ' then ((c :: ahead).takeWhile (· == ' ')).length
    else match dashLength? behind (c :: ahead) with
      | some length => length
      | none => wordLength 1 (c :: behind) ahead

theorem le_wordLength (length : Nat) (behind ahead : List Char) :
    length ≤ wordLength length behind ahead := by
  induction ahead generalizing length behind with
  | nil => exact Nat.le_refl _
  | cons c ahead ih =>
    rw [wordLength]
    have := ih (length + 1) (c :: behind)
    split
    · exact Nat.le_refl _
    · split
      · omega
      · split <;> omega

theorem dashLength?_pos {behind ahead : List Char} {length : Nat}
    (h : dashLength? behind ahead = some length) : 0 < length := by
  unfold dashLength? at h
  split at h
  · split at h
    · cases h
      omega
    · cases h
  · cases h

/-- A chunk has at least one character. -/
theorem chunkLength_pos (behind : List Char) {ahead : List Char} (hahead : ahead ≠ []) :
    0 < chunkLength behind ahead := by
  cases ahead with
  | nil => exact absurd rfl hahead
  | cons c ahead =>
    rw [chunkLength]
    split
    · next hc => simp [hc]
    · split
      · next length hlength => exact dashLength?_pos hlength
      · exact le_wordLength 1 (c :: behind) ahead

/-! ## Cutting -/

/-- Cuts on; `done` holds the chunks before, the latest first. -/
def chunksFrom (behind : List Char) (done : List (List Char)) (ahead : List Char) :
    List (List Char) :=
  if _h : ahead = [] then done.reverse
  else
    let chunk := ahead.take (chunkLength behind ahead)
    chunksFrom (chunk.reverse ++ behind) (chunk :: done) (ahead.drop (chunkLength behind ahead))
termination_by ahead.length
decreasing_by
  have := chunkLength_pos behind _h
  have := List.length_pos_iff.2 _h
  rw [List.length_drop]
  omega

/-- The chunks of a text in which every blank is a plain space. -/
def chunks (text : List Char) : List (List Char) := chunksFrom [] [] text

/-- Cutting keeps every character in its place. -/
theorem flatten_chunksFrom (behind : List Char) (done : List (List Char)) (ahead : List Char) :
    (chunksFrom behind done ahead).flatten = done.reverse.flatten ++ ahead := by
  fun_induction chunksFrom behind done ahead with
  | case1 => simp
  | case2 behind done ahead hahead chunk ih =>
    rw [ih, List.reverse_cons, List.flatten_append, List.append_assoc]
    simp [chunk]

theorem flatten_chunks (text : List Char) : (chunks text).flatten = text :=
  flatten_chunksFrom [] [] text

end ExposureKit
