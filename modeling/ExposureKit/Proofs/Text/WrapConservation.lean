import ExposureKit.Text.Wrap

/-!
# Wrapping keeps the text

Filling lines moves no character and makes none up: all that it takes away are spaces
where a line begins or ends.  `Spaced text lines` says so, and has one step for a gap and
one for a line; every step of the filling loop is such a step.

* `nextLine_flatten`: one round.  What is left to fill is a gap, the line, a gap, and
  what is left afterwards.
* `spaced_linesFrom`: all rounds, by the recursion of `linesFrom`.
* `wrap_conserves`: the main result, for a text with blanks of any kind.
-/

namespace ExposureKit.Wrap

/-! ## Gaps -/

/-- Nothing but spaces. -/
def Gap (text : List Char) : Prop := ∀ c ∈ text, c = ' '

theorem gap_nil : Gap [] := by simp [Gap]

theorem gap_append {a b : List Char} (ha : Gap a) (hb : Gap b) : Gap (a ++ b) := by
  intro c hc
  rcases List.mem_append.1 hc with h | h
  · exact ha c h
  · exact hb c h

theorem gap_of_isSpaces {piece : List Char} (h : isSpaces piece = true) : Gap piece := by
  intro c hc
  simpa using List.all_eq_true.1 h c hc

theorem gap_of_spaces {pieces : List (List Char)} (h : ∀ piece ∈ pieces, isSpaces piece = true) :
    Gap pieces.flatten := by
  intro c hc
  obtain ⟨piece, hpiece, hmem⟩ := List.mem_flatten.1 hc
  exact gap_of_isSpaces (h piece hpiece) c hmem

theorem filter_gap {gap : List Char} (h : Gap gap) (keep : Char → Bool) (hkeep : keep ' ' = false) :
    gap.filter keep = [] := by
  rw [List.filter_eq_nil_iff]
  intro c hc
  rw [h c hc, hkeep]
  decide

/-! ## Lines with gaps between them -/

/-- The text is the lines, in order, with a gap before each of them and one at the end:
`first` before the first line and one of `gaps` after each. -/
def Spaced (text : List Char) (lines : List (List Char)) : Prop :=
  ∃ first gaps, gaps.length = lines.length ∧ Gap first ∧ (∀ gap ∈ gaps, Gap gap) ∧
    text = first ++ (List.zipWith (· ++ ·) lines gaps).flatten

theorem spaced_nil : Spaced [] [] := ⟨[], [], rfl, gap_nil, by simp, rfl⟩

theorem Spaced.gap_append {gap text : List Char} {lines : List (List Char)} (hgap : Gap gap)
    (h : Spaced text lines) : Spaced (gap ++ text) lines := by
  obtain ⟨first, gaps, hlength, hfirst, hgaps, rfl⟩ := h
  refine ⟨gap ++ first, gaps, hlength, Wrap.gap_append hgap hfirst, hgaps, ?_⟩
  rw [List.append_assoc]

theorem Spaced.line_append {text : List Char} {lines : List (List Char)} (line : List Char)
    (h : Spaced text lines) : Spaced (line ++ text) (line :: lines) := by
  obtain ⟨first, gaps, hlength, hfirst, hgaps, rfl⟩ := h
  refine ⟨[], first :: gaps, by simp [hlength], gap_nil, ?_, ?_⟩
  · intro gap hgap
    rcases List.mem_cons.1 hgap with rfl | hgap
    · exact hfirst
    · exact hgaps gap hgap
  · simp

/-- Only spaces are lost. -/
theorem Spaced.filter_eq {text : List Char} {lines : List (List Char)} (h : Spaced text lines)
    (keep : Char → Bool) (hkeep : keep ' ' = false) :
    text.filter keep = lines.flatten.filter keep := by
  obtain ⟨first, gaps, hlength, hfirst, hgaps, rfl⟩ := h
  rw [List.filter_append, filter_gap hfirst keep hkeep, List.nil_append]
  induction lines generalizing gaps with
  | nil => simp
  | cons line lines ih =>
    cases gaps with
    | nil => cases hlength
    | cons gap gaps =>
      have hrest := ih gaps (by simpa using hlength) fun g hg => hgaps g (by simp [hg])
      simp [List.filter_append, filter_gap (hgaps gap (by simp)) keep hkeep, hrest]

/-! ## One line -/

/-- Dropping leading spaces leaves a gap in front. -/
theorem flatten_eq_gap_append (pieces : List (List Char)) :
    ∃ gap, Gap gap ∧ pieces.flatten = gap ++ (dropSpaces pieces).flatten := by
  cases pieces with
  | nil => exact ⟨[], gap_nil, rfl⟩
  | cons piece pieces =>
    rw [dropSpaces]
    split
    · next h => exact ⟨piece, gap_of_isSpaces h, rfl⟩
    · exact ⟨[], gap_nil, rfl⟩

/-- Dropping spaces from the end of a line leaves a gap behind it. -/
theorem reverse_flatten_eq_append_gap (line : List (List Char)) :
    ∃ gap, Gap gap ∧ line.reverse.flatten = (dropSpaces line).reverse.flatten ++ gap := by
  cases line with
  | nil => exact ⟨[], gap_nil, rfl⟩
  | cons piece line =>
    rw [dropSpaces]
    split
    · next h => exact ⟨piece, gap_of_isSpaces h, by simp⟩
    · exact ⟨[], gap_nil, by simp⟩

/-- All characters of a line that is being filled, those on it before those that are not. -/
def Filling.text (filling : Filling) : List Char :=
  filling.line.reverse.flatten ++ filling.rest.flatten

/-- Filling moves whole pieces onto the line. -/
theorem text_fill (room : Nat) (line pieces : List (List Char)) :
    (fill room line pieces).text = line.reverse.flatten ++ pieces.flatten := by
  induction pieces generalizing room line with
  | nil => rfl
  | cons piece pieces ih =>
    rw [fill]
    split
    · rw [ih]; simp
    · rfl

/-- Breaking moves the front of a piece onto the line. -/
theorem text_breakLong (width : Nat) (filling : Filling) :
    (breakLong width filling).text = filling.text := by
  rw [breakLong]
  split
  · rfl
  · next piece pieces hrest =>
    split
    · rfl
    · simp only [Filling.text, hrest, List.splitAt_eq, List.reverse_cons, List.flatten_append,
        List.flatten_cons, List.flatten_nil, List.append_nil, List.append_assoc]
      rw [← List.append_assoc (List.take _ piece), List.take_append_drop]

/-- One round of filling: what was left is a gap, the line, a gap, and what is left now. -/
theorem nextLine_flatten (width : Nat) (isFirst : Bool) (pieces : List (List Char)) :
    ∃ before after, Gap before ∧ Gap after ∧
      pieces.flatten = before ++ ((nextLine width isFirst pieces).1.flatten ++
        (after ++ (nextLine width isFirst pieces).2.flatten)) := by
  rw [nextLine]
  dsimp only
  generalize hkept : (if isFirst then pieces else dropSpaces pieces) = kept
  obtain ⟨before, hbefore, hpieces⟩ :
      ∃ before, Gap before ∧ pieces.flatten = before ++ kept.flatten := by
    subst hkept
    split
    · exact ⟨[], gap_nil, rfl⟩
    · exact flatten_eq_gap_append pieces
  generalize hfilling : breakLong width (fill width [] kept) = filling
  have htext : filling.text = kept.flatten := by
    rw [← hfilling, text_breakLong, text_fill]
    rfl
  obtain ⟨after, hafter, hline⟩ := reverse_flatten_eq_append_gap filling.line
  refine ⟨before, after, hbefore, hafter, ?_⟩
  rw [hpieces, ← htext, Filling.text, hline, List.append_assoc]

/-! ## All lines -/

/-- The lines of what is left, after the lines before. -/
theorem spaced_linesFrom (width : Nat) (done pieces : List (List Char)) :
    ∃ lines, linesFrom width done pieces = done.reverse ++ lines ∧
      Spaced pieces.flatten lines := by
  fun_induction linesFrom width done pieces with
  | case1 done => exact ⟨[], by simp, spaced_nil⟩
  | case2 done pieces hpieces next ih =>
    obtain ⟨lines, hlines, hspaced⟩ := ih
    obtain ⟨before, after, hbefore, hafter, hflatten⟩ :=
      nextLine_flatten width done.isEmpty pieces
    rw [dite_eq_ite] at hlines
    rw [hlines, hflatten]
    by_cases hempty : next.1 = []
    · -- no line is written, and the gaps around it become one
      refine ⟨lines, by simp [hempty], ?_⟩
      have hline : (nextLine width done.isEmpty pieces).1.flatten = [] := by
        rw [show (nextLine width done.isEmpty pieces).1 = [] from hempty]
        rfl
      rw [hline, List.nil_append]
      exact (hspaced.gap_append hafter).gap_append hbefore
    · refine ⟨next.1.flatten :: lines, by simp [hempty], ?_⟩
      exact ((hspaced.gap_append hafter).line_append _).gap_append hbefore

/-- The lines of a text of which every blank is a plain space. -/
theorem spaced_wrap (width : Nat) (text : List Char) :
    Spaced (text.map blankToSpace) (wrap width text) := by
  obtain ⟨lines, hlines, hspaced⟩ :=
    spaced_linesFrom width [] (chunks (text.map blankToSpace))
  rw [flatten_chunks] at hspaced
  rw [wrap, hlines]
  exact hspaced

/-- A blank is a plain space afterwards, and all other characters stay as they are. -/
theorem filter_map_blankToSpace (text : List Char) :
    (text.map blankToSpace).filter (!isBlank ·) = text.filter (!isBlank ·) := by
  induction text with
  | nil => rfl
  | cons c text ih =>
    rw [List.map_cons]
    cases hc : isBlank c with
    | true => simp [blankToSpace, hc, isBlank_space, ih]
    | false => simp [blankToSpace, hc, ih]

/-- **Wrapping keeps the text.**  With every blank written as a plain space, the text is
its lines in order, with a gap of spaces only before the first line and after each of
them.  So spaces inside a line are kept, and the characters that are not blank are those
of the text, in order. -/
theorem wrap_conserves (width : Nat) (text : List Char) :
    (∃ first gaps, gaps.length = (wrap width text).length ∧ (∀ c ∈ first, c = ' ') ∧
      (∀ gap ∈ gaps, ∀ c ∈ gap, c = ' ') ∧
      text.map blankToSpace =
        first ++ (List.zipWith (fun line gap => line ++ gap) (wrap width text) gaps).flatten) ∧
    (wrap width text).flatten.filter (!isBlank ·) = text.filter (!isBlank ·) := by
  refine ⟨spaced_wrap width text, ?_⟩
  rw [← filter_map_blankToSpace text]
  exact ((spaced_wrap width text).filter_eq (!isBlank ·) (by simp [isBlank_space])).symm

end ExposureKit.Wrap
