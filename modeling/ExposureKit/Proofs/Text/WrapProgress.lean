import ExposureKit.Proofs.Text.LineBounds

/-!
# Wrapping ends

A round of filling may write no line, may cut nothing off a long piece because the line is
full, and may leave an empty piece in front where a line has no width.  What every round
makes smaller is the `size` of what is left: all characters, and one for every piece.

* `roundBounds`: what the arithmetic of any one round rests on.
* `Reached`: the states that the loop comes through, counted in rounds.  What holds of all of
  them is shown by induction on the rounds.
* `wrap_progress`: the main result.
-/

namespace ExposureKit.Wrap

variable {width rounds : Nat} {text : List Char} {done pieces : List (List Char)}

/-! ## What is left -/

/-- All characters that are left, and the number of pieces that they are in. -/
def size (pieces : List (List Char)) : Nat := pieces.flatten.length + pieces.length

theorem weight_eq_size (pieces : List (List Char)) : weight pieces = size pieces := by
  induction pieces with
  | nil => rfl
  | cons piece pieces ih =>
    rw [weight, ih, size, size, List.flatten_cons, List.length_append, List.length_cons]
    omega

/-- Every round leaves less than there was. -/
theorem size_nextLine (width : Nat) (isFirst : Bool) (hpieces : pieces ≠ []) :
    size (nextLine width isFirst pieces).2 < size pieces := by
  rw [← weight_eq_size, ← weight_eq_size]
  exact weight_nextLine width isFirst hpieces

/-! ## The arithmetic of a round -/

/-- The line of a round with the pieces on it that fit, before a long piece is cut. -/
def filled (width : Nat) (isFirst : Bool) (pieces : List (List Char)) : Filling :=
  fill width [] (lineStart isFirst pieces)

/-- What the arithmetic of a round rests on. -/
structure RoundBounds (width : Nat) (isFirst : Bool) (pieces : List (List Char)) : Prop where
  /-- It is from this line on that a long piece is cut. -/
  cutFrom : nextLine width isFirst pieces =
    ((dropSpaces (breakLong width (filled width isFirst pieces)).line).reverse,
      (breakLong width (filled width isFirst pieces)).rest)
  /-- The room on the line is what its characters leave of the width.  So they are no more
  than the width, and the difference is not cut off at zero. -/
  room : (filled width isFirst pieces).line.flatten.length + (filled width isFirst pieces).room =
    width
  /-- A piece that is too long for any line is cut at its end at the latest. -/
  cut : ∀ piece ∈ (filled width isFirst pieces).rest.head?, width < piece.length →
    cutLength (if width = 0 then 1 else (filled width isFirst pieces).room) piece ≤ piece.length
  /-- The round leaves less than there was. -/
  shrinks : pieces ≠ [] → size (nextLine width isFirst pieces).2 < size pieces

/-- The bounds hold in every round, whatever the pieces are. -/
theorem roundBounds (width : Nat) (isFirst : Bool) (pieces : List (List Char)) :
    RoundBounds width isFirst pieces := by
  have hroom : (filled width isFirst pieces).line.flatten.length +
      (filled width isFirst pieces).room = width := by
    obtain ⟨placed, rest, -, hplaced, hfill, -⟩ :=
      exists_fill_eq width [] (lineStart isFirst pieces)
    have hlength : placed.reverse.flatten.length = placed.flatten.length := by
      simp [List.length_flatten]
    rw [filled, hfill, List.append_nil, hlength]
    exact Nat.add_sub_cancel' hplaced
  refine ⟨by rw [nextLine, ← lineStart, ← filled], hroom, ?_, size_nextLine width isFirst⟩
  intro piece _ hlong
  refine (cutLength_le _ piece).trans ?_
  split <;> omega

/-! ## The states of the loop -/

/-- The lines after a round.  A line on which no piece is left is not written. -/
def written (line done : List (List Char)) : List (List Char) :=
  if line.isEmpty then done else line.flatten :: done

/-- The states that the loop comes through: the rounds so far, the lines that have been
written, the latest first, and the pieces that are left. -/
inductive Reached (width : Nat) (text : List Char) :
    (rounds : Nat) → (done pieces : List (List Char)) → Prop
  /-- At first no line is written, and all chunks are left. -/
  | start : Reached width text 0 [] (chunks (text.map blankToSpace))
  /-- While a piece is left, there is another round. -/
  | round {rounds : Nat} {done pieces : List (List Char)}
      (hreached : Reached width text rounds done pieces) (hpieces : pieces ≠ []) :
      Reached width text (rounds + 1) (written (nextLine width done.isEmpty pieces).1 done)
        (nextLine width done.isEmpty pieces).2

theorem linesFrom_of_ne_nil (width : Nat) (done : List (List Char)) (hpieces : pieces ≠ []) :
    linesFrom width done pieces =
      linesFrom width (written (nextLine width done.isEmpty pieces).1 done)
        (nextLine width done.isEmpty pieces).2 := by
  rw [linesFrom, dif_neg hpieces]
  rfl

/-- From every state that is reached the loop goes on to the lines of the text. -/
theorem Reached.linesFrom_eq (h : Reached width text rounds done pieces) :
    linesFrom width done pieces = wrap width text := by
  induction h with
  | start => rfl
  | round _ hpieces ih => rw [← linesFrom_of_ne_nil width _ hpieces, ih]

/-- From every state that is reached the loop goes on to one in which no piece is left. -/
theorem Reached.exists_last (h : Reached width text rounds done pieces) :
    ∃ rounds done, Reached width text rounds done [] := by
  induction hsize : size pieces using Nat.strong_induction_on generalizing rounds done pieces with
  | _ _ ih =>
    by_cases hpieces : pieces = []
    · exact ⟨rounds, done, hpieces ▸ h⟩
    · have hshrinks := size_nextLine width done.isEmpty hpieces
      exact ih _ (hsize ▸ hshrinks) (h.round hpieces) rfl

/-- Each round so far has made what is left smaller by one at least. -/
theorem Reached.rounds_add_size_le (h : Reached width text rounds done pieces) :
    rounds + size pieces ≤ size (chunks (text.map blankToSpace)) := by
  induction h with
  | start => rw [Nat.zero_add]
  | @round rounds done pieces _ hpieces ih =>
    have hshrinks := size_nextLine width done.isEmpty hpieces
    omega

/-- Where lines have a width, words and runs of spaces alternate in what is left. -/
theorem Reached.alternating (h : Reached width text rounds done pieces) (hwidth : 0 < width) :
    Alternating pieces := by
  induction h with
  | start => exact alternating_chunks _
  | @round rounds done pieces _ _ ih =>
    have hstart : Alternating (lineStart done.isEmpty pieces) := ih.suffix (lineStart_suffix _ _)
    exact (nextLine_round width done.isEmpty pieces).alternating hwidth hstart

/-- An empty piece is left only where lines have no width. -/
theorem Reached.width_eq_zero (h : Reached width text rounds done pieces) (hempty : [] ∈ pieces) :
    width = 0 := by
  by_contra hwidth
  exact (h.alternating (Nat.pos_of_ne_zero hwidth)).ne_nil [] hempty rfl

/-- **Wrapping ends.**  In every state that the loop reaches, the next round leaves less than
there was, its line has no more characters than there is width, and a long piece is cut at
its end at the latest; the rounds so far and what is left do not exceed what there was at
first; and there is an empty piece only where lines have no width.  The loop does come to a
state in which nothing is left, and what has been written by then are the lines of the
text. -/
theorem wrap_progress (width : Nat) (text : List Char) :
    (∀ rounds done pieces, Reached width text rounds done pieces →
      RoundBounds width done.isEmpty pieces ∧
      rounds + size pieces ≤ size (chunks (text.map blankToSpace)) ∧
      ([] ∈ pieces → width = 0)) ∧
    (∃ rounds done, Reached width text rounds done []) ∧
    ∀ rounds done, Reached width text rounds done [] → done.reverse = wrap width text := by
  refine ⟨?_, Reached.start.exists_last, ?_⟩
  · intro rounds done pieces h
    exact ⟨roundBounds width done.isEmpty pieces, h.rounds_add_size_le, h.width_eq_zero⟩
  · intro rounds done h
    rw [← h.linesFrom_eq, linesFrom, dif_pos rfl]

/-- Where lines have no width, the last character of a piece leaves an empty one behind, which takes
a round of its own. -/
theorem wrap_progress_empty_piece :
    Reached 0 "ab".toList 2 ["b".toList, "a".toList] [[]] ∧ RoundBounds 0 false [[]] ∧
      2 + size [[]] ≤ size (chunks ("ab".toList.map blankToSpace)) ∧
      Reached 0 "ab".toList 3 ["b".toList, "a".toList] [] ∧
      wrap 0 "ab".toList = ["a".toList, "b".toList] := by
  have hchunks : chunks ("ab".toList.map blankToSpace) = ["ab".toList] := by decide +kernel
  have hstart : Reached 0 "ab".toList 0 [] ["ab".toList] := hchunks ▸ .start
  have hfirst : Reached 0 "ab".toList 1 ["a".toList] ["b".toList] := hstart.round (by decide)
  have hsecond : Reached 0 "ab".toList 2 ["b".toList, "a".toList] [[]] :=
    hfirst.round (by decide)
  have hlast : Reached 0 "ab".toList 3 ["b".toList, "a".toList] [] := hsecond.round (by decide)
  obtain ⟨hstates, -, hlines⟩ := wrap_progress 0 "ab".toList
  obtain ⟨hbounds, hsize, -⟩ := hstates 2 _ _ hsecond
  exact ⟨hsecond, hbounds, hsize, hlast, (hlines 3 _ hlast).symm⟩

end ExposureKit.Wrap
