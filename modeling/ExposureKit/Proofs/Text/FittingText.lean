import ExposureKit.Proofs.Text.TrailingSpaces

/-!
# Texts that fit on a line

Spaces at the end of a text are one chunk, of any length.  Where the chunks before them fit on a
line, what can be placed of the spaces is taken off again, and what cannot be is left for a round
that writes nothing: so they never count.

* `Round.of_fits`: a round that is given pieces that fit, and spaces behind them.
* `Run.of_spaces`, `Run.eq_singleton_of_fits`: no line is written for spaces alone, and one line
  for pieces that fit.

The main result is `wrap_fitting_text`.
-/

namespace ExposureKit.Wrap

variable {width : Nat} {isFirst : Bool} {pieces line rest lines kept ending : List (List Char)}

/-! ## Spaces at the end -/

theorem dropSpaces_cons_eq_nil_iff {piece : List Char} :
    dropSpaces (piece :: pieces) = [] ↔ isSpaces piece = true ∧ pieces = [] := by
  rw [dropSpaces]
  split <;> simp [*]

/-- Nothing but one piece of spaces in two parts: one part is empty. -/
theorem dropSpaces_append_eq_nil (h : dropSpaces (kept ++ ending) = []) :
    (kept = [] ∧ dropSpaces ending = []) ∨ (dropSpaces kept = [] ∧ ending = []) := by
  cases kept with
  | nil => exact .inl ⟨rfl, h⟩
  | cons piece kept =>
    obtain ⟨hspaces, hnil⟩ := dropSpaces_cons_eq_nil_iff.1 h
    obtain ⟨rfl, rfl⟩ := List.append_eq_nil_iff.1 hnil
    exact .inr ⟨dropSpaces_cons_eq_nil_iff.2 ⟨hspaces, rfl⟩, rfl⟩

theorem exists_dropEndSpaces_append (pieces : List (List Char)) :
    ∃ ending, pieces = dropEndSpaces pieces ++ ending ∧ dropSpaces ending = [] := by
  rcases List.eq_nil_or_concat pieces with rfl | ⟨front, last, rfl⟩
  · exact ⟨[], rfl, rfl⟩
  · rw [List.concat_eq_append, dropEndSpaces_concat]
    split
    · next hspaces => exact ⟨[last], rfl, dropSpaces_cons_eq_nil_iff.2 ⟨hspaces, rfl⟩⟩
    · exact ⟨[], by rw [List.append_nil], rfl⟩

theorem dropEndSpaces_append (hkept : dropEndSpaces kept = kept) (hending : dropSpaces ending = []) :
    dropEndSpaces (kept ++ ending) = kept := by
  cases ending with
  | nil => rw [List.append_nil, hkept]
  | cons piece ending =>
    obtain ⟨hspaces, rfl⟩ := dropSpaces_cons_eq_nil_iff.1 hending
    rw [dropEndSpaces_concat, if_pos hspaces]

/-! ## Pieces that fit -/

/-- Pieces that fit are the line, whatever spaces there are behind them. -/
theorem Round.of_fits (h : Round width (kept ++ ending) line rest)
    (hkept : dropEndSpaces kept = kept) (hending : dropSpaces ending = [])
    (hfits : kept.flatten.length ≤ width) : line = kept ∧ dropSpaces rest = [] := by
  obtain ⟨placed, left, rfl, hround⟩ := h.exists_placed hfits
  have hparts := dropSpaces_append_eq_nil hending
  rcases hround with ⟨rfl, rfl⟩ | ⟨piece, after, taken, rfl, -, rfl, rfl⟩
  · rcases hparts with ⟨rfl, hleft⟩ | ⟨hplaced, rfl⟩
    · exact ⟨dropEndSpaces_append hkept rfl, hleft⟩
    · exact ⟨dropEndSpaces_append hkept hplaced, rfl⟩
  · obtain ⟨rfl, hleft⟩ := hparts.resolve_right fun h => List.cons_ne_nil _ _ h.2
    obtain ⟨hspaces, rfl⟩ := dropSpaces_cons_eq_nil_iff.1 hleft
    rw [List.append_nil]
    -- a piece of spaces that is too long for any line is cut, and both parts are spaces
    refine ⟨dropEndSpaces_append hkept ?_, ?_⟩
    · exact dropSpaces_cons_eq_nil_iff.2
        ⟨isSpaces_of_subset hspaces fun c => List.mem_of_mem_take, rfl⟩
    · exact dropSpaces_cons_eq_nil_iff.2
        ⟨isSpaces_of_subset hspaces fun c => List.mem_of_mem_drop, rfl⟩

theorem Round.of_spaces (h : Round width (lineStart isFirst pieces) line rest)
    (hpieces : dropSpaces pieces = []) : line = [] ∧ dropSpaces rest = [] := by
  have hstart : dropSpaces (lineStart isFirst pieces) = [] := by
    rw [lineStart]
    split
    · exact hpieces
    · rw [hpieces]
      rfl
  rw [← List.nil_append (lineStart isFirst pieces)] at h
  exact h.of_fits rfl hstart (Nat.zero_le width)

/-- For spaces alone no line is written. -/
theorem Run.of_spaces (h : Run width isFirst pieces lines) (hpieces : dropSpaces pieces = []) :
    lines = [] := by
  induction h with
  | stop => rfl
  | skip hround _ ih => exact ih (hround.of_spaces hpieces).2
  | write hround hline => exact absurd (hround.of_spaces hpieces).1 hline

/-- Pieces that fit are the only line, whatever spaces there are behind them. -/
theorem Run.eq_singleton_of_fits (h : Run width true (kept ++ ending) lines)
    (hkept : dropEndSpaces kept = kept) (hending : dropSpaces ending = []) (hne : kept ≠ [])
    (hfits : kept.flatten.length ≤ width) : lines = [kept.flatten] := by
  generalize hpieces : kept ++ ending = pieces at h
  cases h with
  | stop => exact absurd (List.append_eq_nil_iff.1 hpieces).1 hne
  | skip hround =>
    rw [lineStart, if_pos rfl, ← hpieces] at hround
    exact absurd (hround.of_fits hkept hending hfits).1.symm hne
  | write hround _ hrun =>
    rw [lineStart, if_pos rfl, ← hpieces] at hround
    obtain ⟨rfl, hrest⟩ := hround.of_fits hkept hending hfits
    rw [hrun.of_spaces hrest]

/-! ## All texts -/

/-- The text with every blank as a plain space, and no spaces at its end. -/
def trimmedText (text : List Char) : List Char := (text.map blankToSpace).rdropWhile (· == ' ')

theorem rdropWhile_append_of_all {α : Type} {p : α → Bool} (front : List α) {back : List α}
    (h : ∀ a ∈ back, p a = true) : (front ++ back).rdropWhile p = front.rdropWhile p := by
  rw [List.rdropWhile, List.reverse_append, List.dropWhile_append_of_pos, ← List.rdropWhile]
  simpa using h

theorem rdropWhile_append_gap {front gap : List Char} (hfront : front.getLast? ≠ some ' ')
    (hgap : Gap gap) : (front ++ gap).rdropWhile (· == ' ') = front := by
  have hspaces : ∀ c ∈ gap, (c == ' ') = true := fun c hc => by simpa using hgap c hc
  rw [rdropWhile_append_of_all front hspaces, List.rdropWhile_eq_self_iff]
  intro hne hlast
  exact hfront (by rw [List.getLast?_eq_some_getLast hne, beq_iff_eq.1 hlast])

theorem Alternating.rdropWhile_flatten (h : Alternating pieces) :
    pieces.flatten.rdropWhile (· == ' ') = (dropEndSpaces pieces).flatten := by
  obtain ⟨gap, hgap, hflatten⟩ := flatten_dropEndSpaces pieces
  rw [hflatten, rdropWhile_append_gap h.getLast?_dropEndSpaces hgap]

/-- The trimmed text is made of the chunks without spaces at the end. -/
theorem trimmedText_eq (text : List Char) :
    trimmedText text = (dropEndSpaces (chunks (text.map blankToSpace))).flatten := by
  rw [← (alternating_chunks _).rdropWhile_flatten, flatten_chunks, trimmedText]

/-- A trimmed text ends with another character than a space. -/
theorem trimmedText_getLast? (text : List Char) : (trimmedText text).getLast? ≠ some ' ' := by
  rw [trimmedText_eq]
  exact (alternating_chunks _).getLast?_dropEndSpaces

/-- The lines hold the characters of the trimmed text that are no spaces. -/
theorem filter_flatten_wrap (width : Nat) (text : List Char) :
    (wrap width text).flatten.filter (· != ' ') = (trimmedText text).filter (· != ' ') := by
  have hgap : Gap ((text.map blankToSpace).rtakeWhile (· == ' ')) := by
    intro c hc
    simpa using List.mem_rtakeWhile_imp hc
  calc (wrap width text).flatten.filter (· != ' ')
      = (text.map blankToSpace).filter (· != ' ') :=
        ((spaced_wrap width text).filter_eq (· != ' ') rfl).symm
    _ = (trimmedText text ++ (text.map blankToSpace).rtakeWhile (· == ' ')).filter (· != ' ') := by
        rw [trimmedText, List.rdropWhile_append_rtakeWhile]
    _ = (trimmedText text).filter (· != ' ') := by
        rw [List.filter_append, filter_gap hgap _ rfl, List.append_nil]

/-- No line is written if nothing is left of the text. -/
theorem wrap_eq_nil_iff (width : Nat) (text : List Char) :
    wrap width text = [] ↔ trimmedText text = [] := by
  constructor
  · intro hnil
    have hfilter := filter_flatten_wrap width text
    rw [hnil, List.flatten_nil, List.filter_nil, eq_comm, List.filter_eq_nil_iff] at hfilter
    rw [← List.getLast?_eq_none_iff, Option.eq_none_iff_forall_ne_some]
    rintro c hlast
    refine hfilter c (List.mem_of_getLast? hlast) ?_
    rw [bne_iff_ne]
    rintro rfl
    exact trimmedText_getLast? text hlast
  · intro hnil
    have hchunks := alternating_chunks (text.map blankToSpace)
    obtain ⟨ending, hpieces, hending⟩ :=
      exists_dropEndSpaces_append (chunks (text.map blankToSpace))
    rw [trimmedText_eq] at hnil
    have hkept := eq_nil_of_flatten_eq_nil hnil fun piece hpiece =>
      hchunks.ne_nil piece ((dropEndSpaces_isPrefix _).subset hpiece)
    rw [hkept, List.nil_append] at hpieces
    exact (run_wrap width text).of_spaces (hpieces ▸ hending)

/-- Lines of one character each, and one character on all of them. -/
theorem eq_singleton_of_flatten {c : Char} (hlines : ∀ line ∈ lines, ∃ d, d ≠ ' ' ∧ line = [d])
    (hflatten : lines.flatten = [c]) : lines = [[c]] := by
  match lines with
  | [] => cases hflatten
  | [line] => rw [← hflatten, List.flatten_singleton]
  | first :: next :: lines =>
    obtain ⟨_, -, rfl⟩ := hlines first (by simp)
    obtain ⟨_, -, rfl⟩ := hlines next (by simp)
    simp at hflatten

/-- Where lines have no width, a text of one character is the only line. -/
theorem wrap_zero_of_trimmedText {text : List Char} {c : Char} (h : trimmedText text = [c]) :
    wrap 0 text = [[c]] := by
  have hlines := (run_wrap 0 text).eq_singleton (.whole (alternating_chunks _))
  have hkeep : (wrap 0 text).flatten.filter (· != ' ') = (wrap 0 text).flatten := by
    rw [List.filter_eq_self]
    intro d hd
    obtain ⟨line, hline, hmem⟩ := List.mem_flatten.1 hd
    obtain ⟨e, he, rfl⟩ := hlines line hline
    rw [List.mem_singleton.1 hmem]
    simpa using he
  have hc : c ≠ ' ' := by
    rintro rfl
    exact trimmedText_getLast? text (by rw [h]; rfl)
  refine eq_singleton_of_flatten hlines ?_
  rw [← hkeep, filter_flatten_wrap, h]
  simpa using hc

/-- **Texts that fit are left alone, and only those.**  A text of which nothing is left without the
spaces at its end has no line.  Any other is a line of its own, spaces in front included, if and
only if that is no longer than the width, where one character may always stand. -/
theorem wrap_fitting_text (width : Nat) (text : List Char) :
    (wrap width text = [] ↔ trimmedText text = []) ∧
      (wrap width text = [trimmedText text] ↔
        trimmedText text ≠ [] ∧ (trimmedText text).length ≤ max width 1) := by
  have hrun := run_wrap width text
  refine ⟨wrap_eq_nil_iff width text, ?_, ?_⟩
  · intro hwrap
    refine ⟨?_, hrun.length_le _ (by rw [hwrap]; simp)⟩
    intro hnil
    rw [(wrap_eq_nil_iff width text).2 hnil] at hwrap
    cases hwrap
  · rintro ⟨hne, hlength⟩
    rcases Nat.eq_zero_or_pos width with rfl | hwidth
    · obtain ⟨c, hc⟩ : ∃ c, trimmedText text = [c] :=
        List.length_eq_one_iff.1 (Nat.le_antisymm hlength (List.length_pos_iff.2 hne))
      rw [hc]
      exact wrap_zero_of_trimmedText hc
    · obtain ⟨ending, hpieces, hending⟩ :=
        exists_dropEndSpaces_append (chunks (text.map blankToSpace))
      rw [trimmedText_eq] at hne hlength ⊢
      rw [hpieces] at hrun
      refine hrun.eq_singleton_of_fits (alternating_chunks _).dropEndSpaces_twice hending ?_ ?_
      · intro hnil
        exact hne (by rw [hnil, List.flatten_nil])
      · rwa [Nat.max_eq_left hwidth] at hlength

example : wrap 4 " abc      ".toList = [" abc".toList] := by cbv

end ExposureKit.Wrap
