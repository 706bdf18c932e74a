import ExposureKit.Text.Wrap

/-!
# Rounds of filling

`Round` says once and for all what a round of filling does with the pieces that it is
given: it puts them on a line while they fit, cuts the next one if that is too long for
any line, and takes spaces off the end.  `Run` is a whole run of such rounds, and what a
round keeps is carried over to all lines by induction on it.

* `nextLine_round`: the filling loop does such rounds.
* `run_wrap`: the lines of a text come from such a run.
-/

namespace ExposureKit.Wrap

/-! ## The ends of a line -/

/-- The pieces that a line is filled with.  Where a line is not the first, spaces in front
are left out. -/
def lineStart (isFirst : Bool) (pieces : List (List Char)) : List (List Char) :=
  if isFirst then pieces else dropSpaces pieces

/-- What is left out in front of a line is spaces. -/
theorem exists_lineStart_eq (isFirst : Bool) (pieces : List (List Char)) :
    ∃ front, pieces = front ++ lineStart isFirst pieces ∧
      ∀ piece ∈ front, isSpaces piece = true := by
  have hnone : ∃ front, pieces = front ++ pieces ∧ ∀ piece ∈ front, isSpaces piece = true :=
    ⟨[], rfl, by simp⟩
  rw [lineStart]
  split
  · exact hnone
  · cases pieces with
    | nil => exact hnone
    | cons piece pieces =>
      rw [dropSpaces]
      split
      · next hspaces => exact ⟨[piece], rfl, by simpa using hspaces⟩
      · exact hnone

/-- The pieces without the last one, if that is spaces. -/
def dropEndSpaces (line : List (List Char)) : List (List Char) := (dropSpaces line.reverse).reverse

theorem dropEndSpaces_concat (line : List (List Char)) (piece : List Char) :
    dropEndSpaces (line ++ [piece]) = if isSpaces piece then line else line ++ [piece] := by
  rw [dropEndSpaces, List.reverse_concat, dropSpaces]
  split <;> simp

theorem dropEndSpaces_isPrefix (line : List (List Char)) : dropEndSpaces line <+: line := by
  rcases List.eq_nil_or_concat line with rfl | ⟨line, piece, rfl⟩
  · exact List.prefix_rfl
  · rw [List.concat_eq_append, dropEndSpaces_concat]
    split
    · exact List.prefix_append line [piece]
    · exact List.prefix_rfl

theorem flatten_dropEndSpaces_isPrefix (line : List (List Char)) :
    (dropEndSpaces line).flatten <+: line.flatten := by
  obtain ⟨ending, hending⟩ := dropEndSpaces_isPrefix line
  exact ⟨ending.flatten, by rw [← List.flatten_append, hending]⟩

/-! ## A round -/

/-- How many characters of a piece that is too long are looked at, after the pieces that
have been placed. -/
def cutRoom (width : Nat) (placed : List (List Char)) : Nat :=
  if width = 0 then 1 else width - placed.flatten.length

/-- One round: the pieces that there are, the line in pieces, and the pieces that are left. -/
inductive Round (width : Nat) : (pieces line rest : List (List Char)) → Prop
  /-- The line is filled.  The piece that comes next does not fit on it, but would fit on
  a line of its own. -/
  | filled {placed rest : List (List Char)} (hroom : placed.flatten.length ≤ width)
      (hnext : ∀ piece ∈ rest.head?,
        width < placed.flatten.length + piece.length ∧ piece.length ≤ width) :
      Round width (placed ++ rest) (dropEndSpaces placed) rest
  /-- The piece that comes next is too long for any line, and a part of it is placed. -/
  | broken {placed rest : List (List Char)} {piece : List Char}
      (hroom : placed.flatten.length ≤ width) (hlong : width < piece.length) :
      Round width (placed ++ piece :: rest)
        (dropEndSpaces (placed ++ [piece.take (cutLength (cutRoom width placed) piece)]))
        (piece.drop (cutLength (cutRoom width placed) piece) :: rest)

/-- Filling places the pieces in order, as many as fit. -/
theorem exists_fill_eq (room : Nat) (line pieces : List (List Char)) :
    ∃ placed rest, pieces = placed ++ rest ∧ placed.flatten.length ≤ room ∧
      fill room line pieces = ⟨placed.reverse ++ line, room - placed.flatten.length, rest⟩ ∧
      ∀ piece ∈ rest.head?, room < placed.flatten.length + piece.length := by
  induction pieces generalizing room line with
  | nil => exact ⟨[], [], rfl, Nat.zero_le _, rfl, by simp⟩
  | cons piece pieces ih =>
    rw [fill]
    split
    · next hfits =>
      rw [fits_iff] at hfits
      obtain ⟨placed, rest, hpieces, hroom, hfill, hnext⟩ :=
        ih (room - piece.length) (piece :: line)
      refine ⟨piece :: placed, rest, by rw [hpieces, List.cons_append], ?_, ?_, ?_⟩
      · rw [List.flatten_cons, List.length_append]
        omega
      · rw [hfill, List.flatten_cons, List.length_append, Nat.sub_sub]
        simp
      · intro next hmem
        have := hnext next hmem
        rw [List.flatten_cons, List.length_append]
        omega
    · next hfits =>
      rw [fits_iff] at hfits
      refine ⟨[], piece :: pieces, rfl, Nat.zero_le _, rfl, ?_⟩
      intro next hmem
      obtain rfl := Option.some.inj hmem
      simp
      omega

/-- The next line is filled by a round. -/
theorem nextLine_round (width : Nat) (isFirst : Bool) (pieces : List (List Char)) :
    Round width (lineStart isFirst pieces) (nextLine width isFirst pieces).1
      (nextLine width isFirst pieces).2 := by
  rw [nextLine, ← lineStart]
  obtain ⟨placed, rest, hpieces, hroom, hfill, hnext⟩ :=
    exists_fill_eq width [] (lineStart isFirst pieces)
  rw [hfill, hpieces, List.append_nil, breakLong]
  cases rest with
  | nil => exact .filled hroom (by simp)
  | cons piece rest =>
    dsimp only
    by_cases hfits : fits piece width = true
    · rw [if_pos hfits]
      refine .filled hroom fun next hmem => ?_
      obtain rfl := Option.some.inj hmem
      exact ⟨hnext piece rfl, fits_iff.1 hfits⟩
    · rw [if_neg hfits, List.splitAt_eq]
      rw [fits_iff, Nat.not_le] at hfits
      have hround : Round width (placed ++ piece :: rest) _ _ := .broken hroom hfits
      rwa [dropEndSpaces, List.reverse_concat] at hround

/-- A cut takes no more than there is room for. -/
theorem cutLength_le (room : Nat) (piece : List Char) : cutLength room piece ≤ room := by
  rw [cutLength]
  split
  · exact Nat.le_refl _
  · next hyphen before hbefore =>
    split
    · have hlength : (hyphen :: before).length ≤ (piece.take room).reverse.length :=
        hbefore ▸ (List.dropWhile_suffix _).length_le
      rw [List.length_reverse, List.length_take, List.length_cons] at hlength
      omega
    · exact Nat.le_refl _

/-- A line begins as the pieces do. -/
theorem Round.flatten_isPrefix {width : Nat} {pieces line rest : List (List Char)}
    (h : Round width pieces line rest) : line.flatten <+: pieces.flatten := by
  cases h with
  | filled =>
    rw [List.flatten_append]
    exact (flatten_dropEndSpaces_isPrefix _).trans (List.prefix_append _ _)
  | @broken placed rest piece =>
    refine (flatten_dropEndSpaces_isPrefix _).trans ?_
    rw [List.flatten_append, List.flatten_append, List.flatten_cons, List.flatten_cons,
      List.flatten_nil, List.append_nil, List.prefix_append_right_inj]
    exact ( List.take_prefix _ _).trans (List.prefix_append _ _)

/-- A line is no longer than its width; where there is none, one character may stand. -/
theorem Round.length_le {width : Nat} {pieces line rest : List (List Char)}
    (h : Round width pieces line rest) : line.flatten.length ≤ max width 1 := by
  cases h with
  | @filled placed rest hroom =>
    calc (dropEndSpaces placed).flatten.length
        ≤ placed.flatten.length := (flatten_dropEndSpaces_isPrefix placed).length_le
      _ ≤ width := hroom
      _ ≤ max width 1 := Nat.le_max_left _ _
  | @broken placed rest piece hroom =>
    have hcut := cutLength_le (cutRoom width placed) piece
    have hcutRoom : placed.flatten.length + cutRoom width placed ≤ max width 1 := by
      rw [cutRoom]
      split <;> omega
    refine Nat.le_trans (flatten_dropEndSpaces_isPrefix _).length_le ?_
    rw [List.flatten_append, List.flatten_cons, List.flatten_nil, List.append_nil,
      List.length_append, List.length_take]
    omega

/-- Pieces that fit on a line together are all placed, and the round goes on behind them. -/
theorem Round.exists_placed {width : Nat} {front back line rest : List (List Char)}
    (h : Round width (front ++ back) line rest) (hfits : front.flatten.length ≤ width) :
    ∃ placed left, back = placed ++ left ∧
      ((line = dropEndSpaces (front ++ placed) ∧ rest = left) ∨
        ∃ piece after taken, left = piece :: after ∧ width < piece.length ∧
          line = dropEndSpaces (front ++ placed ++ [piece.take taken]) ∧
          rest = piece.drop taken :: after) := by
  generalize hpieces : front ++ back = pieces at h
  cases h with
  | @filled all rest hroom hnext =>
    rcases List.append_eq_append_iff.1 hpieces with ⟨placed, rfl, rfl⟩ | ⟨left, rfl, rfl⟩
    · exact ⟨placed, rest, rfl, .inl ⟨rfl, rfl⟩⟩
    · cases left with
      | nil => exact ⟨[], back, rfl, .inl ⟨by simp, rfl⟩⟩
      | cons piece left =>
        -- the next piece would have found room
        obtain ⟨hlt, -⟩ := hnext piece rfl
        simp only [List.flatten_append, List.flatten_cons, List.length_append] at hfits
        omega
  | @broken all after piece hroom hlong =>
    rcases List.append_eq_append_iff.1 hpieces with ⟨placed, rfl, rfl⟩ | ⟨left, rfl, hleft⟩
    · exact ⟨placed, piece :: after, rfl, .inr ⟨piece, after, _, rfl, hlong, rfl, rfl⟩⟩
    · cases left with
      | nil => exact ⟨[], back, rfl, .inr ⟨piece, after, _, hleft.symm, hlong, by simp, rfl⟩⟩
      | cons first left =>
        obtain ⟨rfl, -⟩ := List.cons.inj hleft
        simp only [List.flatten_append, List.flatten_cons, List.length_append] at hfits
        omega

/-! ## A run -/

/-- A run of rounds over pieces, and the lines that it writes.  A round that leaves no
piece on its line writes none. -/
inductive Run (width : Nat) : (isFirst : Bool) → (pieces lines : List (List Char)) → Prop
  /-- No piece is left. -/
  | stop {isFirst : Bool} : Run width isFirst [] []
  /-- A round that writes no line. -/
  | skip {isFirst : Bool} {pieces rest lines : List (List Char)}
      (hround : Round width (lineStart isFirst pieces) [] rest) (hrun : Run width isFirst rest lines) :
      Run width isFirst pieces lines
  /-- A round that writes a line. -/
  | write {isFirst : Bool} {pieces line rest lines : List (List Char)}
      (hround : Round width (lineStart isFirst pieces) line rest) (hline : line ≠ [])
      (hrun : Run width false rest lines) :
      Run width isFirst pieces (line.flatten :: lines)

/-- The lines of what is left come from a run. -/
theorem exists_run (width : Nat) (done pieces : List (List Char)) :
    ∃ lines, linesFrom width done pieces = done.reverse ++ lines ∧
      Run width done.isEmpty pieces lines := by
  fun_induction linesFrom width done pieces with
  | case1 done => exact ⟨[], by simp, .stop⟩
  | case2 done pieces hpieces next ih =>
    have hround := nextLine_round width done.isEmpty pieces
    obtain ⟨lines, hlines, hrun⟩ := ih
    rw [dite_eq_ite] at hlines hrun
    by_cases hempty : next.1 = []
    · rw [if_pos (by simp [hempty])] at hlines hrun
      refine ⟨lines, by rw [if_pos (by simp [hempty]), hlines], .skip ?_ hrun⟩
      rwa [show (nextLine width done.isEmpty pieces).1 = [] from hempty] at hround
    · have hne : ¬next.1.isEmpty = true := by simpa using hempty
      rw [if_neg hne] at hlines hrun
      refine ⟨next.1.flatten :: lines, ?_, .write hround hempty hrun⟩
      rw [if_neg hne, hlines]
      simp

/-- The lines of a text come from a run over its chunks. -/
theorem run_wrap (width : Nat) (text : List Char) :
    Run width true (chunks (text.map blankToSpace)) (wrap width text) := by
  obtain ⟨lines, hlines, hrun⟩ := exists_run width [] (chunks (text.map blankToSpace))
  rw [wrap, hlines]
  exact hrun

end ExposureKit.Wrap
