import ExposureKit.Text.Chunk

/-!
# Wrapped text

`wrap width text` fills lines of at most `width` characters with the chunks of a
text, as many as fit. A chunk longer than a line is cut: what fits on the current
line stays there, up to the last hyphen if there is a good one. Spaces at the end
of a line and at the start of every line but the first are dropped.

A piece is a chunk or what is left of one; an empty piece counts as spaces.
-/

namespace ExposureKit.Wrap

/-! ## Pieces -/

/-- A piece that holds nothing but spaces. -/
def isSpaces (piece : List Char) : Bool := piece.all (· == ' ')

/-- The piece has at most `room` characters. Its length is not computed, since a
piece may be far longer than a line. -/
def fits (piece : List Char) (room : Nat) : Bool := (piece.drop room).isEmpty

/-- The pieces without the first one, if that is spaces. -/
def dropSpaces : List (List Char) → List (List Char)
  | [] => []
  | piece :: pieces => if isSpaces piece then pieces else piece :: pieces

/-- The size of what is left to fill: all characters, and one for every piece. -/
def weight : List (List Char) → Nat
  | [] => 0
  | piece :: pieces => piece.length + 1 + weight pieces

theorem fits_iff {piece : List Char} {room : Nat} : fits piece room = true ↔ piece.length ≤ room := by
  rw [fits, List.isEmpty_iff, List.drop_eq_nil_iff]

/-! ## One line -/

/-- A line that is being filled. -/
structure Filling where
  /-- The pieces on the line, the latest first. -/
  line : List (List Char)
  /-- How many more characters fit. -/
  room : Nat
  /-- The pieces that are not on it. -/
  rest : List (List Char)

/-- Puts pieces on the line while they fit. -/
def fill (room : Nat) (line : List (List Char)) : List (List Char) → Filling
  | [] => ⟨line, room, []⟩
  | piece :: pieces =>
    if fits piece room then fill (room - piece.length) (piece :: line) pieces
    else ⟨line, room, piece :: pieces⟩

/-- Where to cut a piece of which `room` characters fit: after the last hyphen
among them, unless nothing but hyphens stands before it. -/
def cutLength (room : Nat) (piece : List Char) : Nat :=
  match (piece.take room).reverse.dropWhile (· != '-') with
  | [] => room
  | _ :: before => if before.any (· != '-') then before.length + 1 else room

/-- Puts a part of the next piece on the line, if that piece is too long for any
line. Where a line has no width, one character is taken all the same. -/
def breakLong (width : Nat) (filling : Filling) : Filling :=
  match filling.rest with
  | [] => filling
  | piece :: pieces =>
    if fits piece width then filling
    else
      let (part, left) := piece.splitAt (cutLength (if width = 0 then 1 else filling.room) piece)
      ⟨part :: filling.line, filling.room - part.length, left :: pieces⟩

/-- Fills the next line; gives its pieces in order, which may be none, and the pieces
that are left. -/
def nextLine (width : Nat) (isFirst : Bool) (pieces : List (List Char)) :
    List (List Char) × List (List Char) :=
  let filling := breakLong width (fill width [] (if isFirst then pieces else dropSpaces pieces))
  ((dropSpaces filling.line).reverse, filling.rest)

/-! ## Every line takes something -/

theorem weight_dropSpaces (pieces : List (List Char)) : weight (dropSpaces pieces) ≤ weight pieces := by
  cases pieces with
  | nil => exact Nat.le_refl _
  | cons piece pieces =>
    rw [dropSpaces]
    split
    · rw [weight]; omega
    · exact Nat.le_refl _

theorem weight_fill (room : Nat) (line pieces : List (List Char)) :
    weight (fill room line pieces).rest ≤ weight pieces := by
  induction pieces generalizing room line with
  | nil => exact Nat.le_refl _
  | cons piece pieces ih =>
    rw [fill]
    split
    · have := ih (room - piece.length) (piece :: line)
      rw [weight]; omega
    · exact Nat.le_refl _

theorem weight_breakLong (width : Nat) (filling : Filling) :
    weight (breakLong width filling).rest ≤ weight filling.rest := by
  rw [breakLong]
  split
  · exact Nat.le_refl _
  · next piece pieces h =>
    rw [h]
    split
    · exact Nat.le_of_eq (congrArg weight h)
    · simp only [List.splitAt_eq, weight, List.length_drop]
      omega

/-- A cut in some room takes at least one character. -/
theorem cutLength_pos {room : Nat} (hroom : 0 < room) (piece : List Char) :
    0 < cutLength room piece := by
  rw [cutLength]
  split
  · exact hroom
  · split <;> omega

/-- What is left after a line weighs less than before: a piece was put on the line
or dropped, or a long piece has become shorter. -/
theorem weight_nextLine (width : Nat) (isFirst : Bool) {pieces : List (List Char)}
    (hpieces : pieces ≠ []) : weight (nextLine width isFirst pieces).2 < weight pieces := by
  rw [nextLine]
  dsimp only
  generalize hkept : (if isFirst then pieces else dropSpaces pieces) = kept
  have hle : weight kept ≤ weight pieces := by
    subst hkept
    split
    · exact Nat.le_refl _
    · exact weight_dropSpaces pieces
  cases kept with
  | nil =>
    obtain ⟨piece, pieces, rfl⟩ := List.exists_cons_of_ne_nil hpieces
    exact Nat.lt_of_le_of_lt (weight_breakLong width _) (by simp only [fill, weight]; omega)
  | cons piece kept =>
    refine Nat.lt_of_lt_of_le ?_ hle
    rw [fill]
    split
    · refine Nat.lt_of_le_of_lt (weight_breakLong width _) ?_
      refine Nat.lt_of_le_of_lt (weight_fill _ _ kept) ?_
      rw [weight]; omega
    · next hfits =>
      have hlong : width < piece.length := by
        rw [fits_iff] at hfits; omega
      rw [breakLong]
      dsimp only
      rw [if_neg hfits]
      have hcut : 0 < cutLength (if width = 0 then 1 else width) piece :=
        cutLength_pos (by split <;> omega) piece
      simp only [List.splitAt_eq, weight, List.length_drop]
      omega

/-! ## All lines -/

/-- Fills lines until no piece is left; `done` holds the lines before, the latest
first. A line on which no piece is left is not written. -/
def linesFrom (width : Nat) (done : List (List Char)) (pieces : List (List Char)) :
    List (List Char) :=
  if _h : pieces = [] then done.reverse
  else
    let next := nextLine width done.isEmpty pieces
    linesFrom width (if next.1.isEmpty then done else next.1.flatten :: done) next.2
termination_by weight pieces
decreasing_by exact weight_nextLine width done.isEmpty _h

/-- The lines of a text at most `width` characters wide. -/
def wrap (width : Nat) (text : List Char) : List (List Char) :=
  linesFrom width [] (chunks (text.map blankToSpace))

end ExposureKit.Wrap
