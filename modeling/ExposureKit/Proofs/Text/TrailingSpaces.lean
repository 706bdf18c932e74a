import Mathlib
import ExposureKit.Proofs.Text.LineBounds

/-!
# Spaces at the ends of lines

Spaces are taken off the end of a line before it is written, as one piece.  That misses
them in one case: they fill the line to its last column, and the word behind them is too
long for any line, so that an empty part of the word is placed after them and taken off in
their stead (`wrap_full_line_space` is an instance).

The main result, `wrap_space_end`, is that this is the only case: a line that ends with a
blank is full, and the next line is the front of a word that is longer than a line.
-/

namespace ExposureKit.Wrap

variable {width : Nat} {isFirst : Bool} {pieces line rest lines words : List (List Char)}

/-! ## The end of a line in pieces -/

/-- A word ends with another character than a space. -/
theorem getLast?_word_ne_space {word : List Char} (hword : isSpaces word = false)
    (hunmixed : Unmixed word) : word.getLast? ≠ some ' ' := by
  intro hlast
  rcases hunmixed with h | h
  · rw [h] at hword
    cases hword
  · exact h (List.mem_of_getLast? hlast)

theorem flatten_dropEndSpaces (line : List (List Char)) :
    ∃ gap, Gap gap ∧ line.flatten = (dropEndSpaces line).flatten ++ gap := by
  obtain ⟨gap, hgap, hline⟩ := reverse_flatten_eq_append_gap line.reverse
  rw [List.reverse_reverse] at hline
  exact ⟨gap, hgap, hline⟩

theorem getLast?_flatten_concat (placed : List (List Char)) {piece : List Char}
    (hpiece : piece ≠ []) : (placed ++ [piece]).flatten.getLast? = piece.getLast? := by
  rw [List.flatten_append, List.flatten_cons, List.flatten_nil, List.append_nil,
    List.getLast?_append_of_ne_nil _ hpiece]

/-- Alternating pieces that end with a space end with a run of spaces. -/
theorem Alternating.exists_concat_of_getLast? (h : Alternating pieces)
    (hlast : pieces.flatten.getLast? = some ' ') :
    ∃ front piece, pieces = front ++ [piece] ∧ isSpaces piece = true := by
  rcases List.eq_nil_or_concat pieces with rfl | ⟨front, piece, rfl⟩
  · cases hlast
  · rw [List.concat_eq_append] at h hlast ⊢
    refine ⟨front, piece, rfl, ?_⟩
    rw [getLast?_flatten_concat front (h.ne_nil piece (by simp))] at hlast
    by_contra hword
    exact getLast?_word_ne_space (Bool.not_eq_true _ ▸ hword) (h.unmixed piece (by simp)) hlast

/-- After spaces at the end, the next piece is a word. -/
theorem Alternating.isSpaces_next {piece next : List Char}
    (h : Alternating (pieces ++ piece :: next :: rest)) (hspaces : isSpaces piece = true) :
    isSpaces next = false :=
  (h.suffix (List.suffix_append _ _)).apart.rel hspaces

/-- There are no spaces left at the end once they have been taken off. -/
theorem Alternating.dropEndSpaces_twice (h : Alternating pieces) :
    dropEndSpaces (dropEndSpaces pieces) = dropEndSpaces pieces := by
  rcases List.eq_nil_or_concat pieces with rfl | ⟨front, last, rfl⟩
  · rfl
  rw [List.concat_eq_append] at h ⊢
  rw [dropEndSpaces_concat]
  split
  · next hlast =>
    rcases List.eq_nil_or_concat front with rfl | ⟨front, word, rfl⟩
    · rfl
    rw [List.concat_eq_append] at h ⊢
    rw [dropEndSpaces_concat, if_neg]
    intro hspaces
    rw [List.append_assoc] at h
    rw [h.isSpaces_next hspaces] at hlast
    cases hlast
  · next hword => rw [dropEndSpaces_concat, if_neg hword]

/-- Alternating pieces end with a word once spaces have been taken off. -/
theorem Alternating.getLast?_dropEndSpaces (h : Alternating pieces) :
    (dropEndSpaces pieces).flatten.getLast? ≠ some ' ' := by
  intro hlast
  have hkept : Alternating (dropEndSpaces pieces) :=
    h.part (dropEndSpaces_isPrefix pieces).isInfix
  obtain ⟨front, piece, hfront, hspaces⟩ := hkept.exists_concat_of_getLast? hlast
  have htwice := h.dropEndSpaces_twice
  rw [hfront, dropEndSpaces_concat, if_pos hspaces] at htwice
  simp at htwice

/-! ## A round that leaves a space at the end -/

/-- Where there is room, the part of a word that is placed is a word. -/
theorem isSpaces_cut {word : List Char} {room : Nat} (hroom : 0 < room)
    (hword : isSpaces word = false) (hunmixed : Unmixed word) :
    isSpaces (word.take (cutLength room word)) = false := by
  have hcut : 0 < cutLength room word := cutLength_pos hroom word
  have hne : word.take (cutLength room word) ≠ [] := by
    rw [Ne, List.take_eq_nil_iff, not_or]
    refine ⟨Nat.ne_of_gt hcut, ?_⟩
    rintro rfl
    cases hword
  by_contra hspaces
  rw [Bool.not_eq_false] at hspaces
  rw [hunmixed.isSpaces_of_part (fun c hc => List.mem_of_mem_take hc) hspaces hne] at hword
  cases hword

/-- A round leaves a space at the end of its line only if the line is full and a word that
is too long for any line comes next, none of which is placed. -/
theorem Round.getLast?_eq_space (h : Round width pieces line rest) (hwidth : 0 < width)
    (hpieces : Alternating pieces) (hlast : line.flatten.getLast? = some ' ') :
    ∃ word after, pieces = line ++ word :: after ∧ rest = word :: after ∧ line ≠ [] ∧
      line.flatten.length = width ∧ isSpaces word = false ∧ width < word.length := by
  cases h with
  | @filled placed rest =>
    exact absurd hlast (hpieces.part ⟨[], rest, rfl⟩).getLast?_dropEndSpaces
  | @broken placed after word hroom hlong =>
    have hunmixed : Unmixed word := hpieces.unmixed word (by simp)
    rw [dropEndSpaces_concat] at hlast ⊢
    split at hlast
    · next hpart =>
      rw [if_pos hpart]
      have hplaced : Alternating placed := hpieces.part ⟨[], word :: after, rfl⟩
      obtain ⟨front, spaces, rfl, hspaces⟩ := hplaced.exists_concat_of_getLast? hlast
      rw [List.append_assoc] at hpieces
      have hword : isSpaces word = false := hpieces.isSpaces_next hspaces
      -- only where there is no room is a part of a word no word
      have hfull : cutRoom width (front ++ [spaces]) = 0 := by
        by_contra hne
        rw [isSpaces_cut (Nat.pos_of_ne_zero hne) hword hunmixed] at hpart
        cases hpart
      have hcut : cutLength (cutRoom width (front ++ [spaces])) word = 0 := by
        rw [hfull]
        exact Nat.le_zero.1 (cutLength_le 0 word)
      rw [cutRoom, if_neg (by omega)] at hfull
      exact ⟨word, after, rfl, by rw [hcut, List.drop_zero], by simp, by omega, hword, hlong⟩
    · next hpart =>
      have hne : word.take (cutLength (cutRoom width placed) word) ≠ [] :=
        fun hnil => hpart (by rw [hnil, isSpaces_nil])
      have hcut : Unmixed (word.take (cutLength (cutRoom width placed) word)) :=
        hunmixed.of_subset fun c hc => List.mem_of_mem_take hc
      rw [getLast?_flatten_concat placed hne] at hlast
      exact absurd hlast (getLast?_word_ne_space (Bool.not_eq_true _ ▸ hpart) hcut)

/-! ## The line after -/

/-- Where a word that is too long comes first, the line is the front of it. -/
theorem Round.line_of_long_word {word : List Char} (h : Round width (word :: pieces) line rest)
    (hwidth : 0 < width) (hlong : width < word.length) (hword : isSpaces word = false)
    (hunmixed : Unmixed word) : line = [word.take (cutLength width word)] := by
  generalize hall : word :: pieces = all at h
  cases h with
  | @filled placed rest hroom hnext =>
    rcases List.cons_eq_append_iff.1 hall with ⟨rfl, rfl⟩ | ⟨placed, rfl, rfl⟩
    · obtain ⟨-, hle⟩ := hnext word rfl
      omega
    · rw [List.flatten_cons, List.length_append] at hroom
      omega
  | @broken placed rest piece hroom =>
    rcases List.cons_eq_append_iff.1 hall with ⟨rfl, heq⟩ | ⟨placed, rfl, rfl⟩
    · obtain ⟨rfl, rfl⟩ := List.cons.inj heq
      have hcutRoom : cutRoom width [] = width := by
        rw [cutRoom, if_neg (by omega)]
        rfl
      rw [hcutRoom, dropEndSpaces_concat, isSpaces_cut hwidth hword hunmixed]
      rfl
    · rw [List.flatten_cons, List.length_append] at hroom
      omega

/-- Behind the first line, a word that is too long for any line makes up the next line. -/
theorem Run.head?_of_long_word {word : List Char} (h : Run width false (word :: pieces) lines)
    (hwidth : 0 < width) (hlong : width < word.length) (hword : isSpaces word = false)
    (hunmixed : Unmixed word) : lines.head? = some (word.take (cutLength width word)) := by
  have hstart : lineStart false (word :: pieces) = word :: pieces := by
    rw [lineStart, if_neg (by decide), dropSpaces, if_neg (by simp [hword])]
  cases h with
  | skip hround =>
    rw [hstart] at hround
    cases hround.line_of_long_word hwidth hlong hword hunmixed
  | write hround =>
    rw [hstart] at hround
    rw [hround.line_of_long_word hwidth hlong hword hunmixed]
    simp

/-! ## All lines -/

theorem lineStart_tail_subset (isFirst : Bool) (pieces : List (List Char)) :
    (lineStart isFirst pieces).tail ⊆ pieces.tail := by
  rw [lineStart]
  split
  · exact List.Subset.refl _
  · cases pieces with
    | nil => exact List.Subset.refl _
    | cons piece pieces =>
      rw [dropSpaces]
      split
      · exact fun p hp => List.mem_of_mem_tail hp
      · exact List.Subset.refl _

/-- Only the first piece that is left can be one that was cut: all others stood behind the
first before. -/
theorem Round.tail_subset (h : Round width (lineStart isFirst pieces) line rest) :
    rest.tail ⊆ pieces.tail := by
  refine List.Subset.trans ?_ (lineStart_tail_subset isFirst pieces)
  generalize lineStart isFirst pieces = pieces at h
  cases h with
  | @filled placed rest =>
    cases placed with
    | nil => exact List.Subset.refl _
    | cons first placed => exact fun p hp => List.mem_append_right _ (List.mem_of_mem_tail hp)
  | @broken placed rest piece =>
    cases placed with
    | nil => exact List.Subset.refl _
    | cons first placed =>
      exact fun p hp => List.mem_append_right _ (List.mem_cons_of_mem _ hp)

/-- A line of a run that ends with a space is full, and the front of a word that is too long
for any line follows. -/
theorem Run.space_end (h : Run width isFirst pieces lines) (hwidth : 0 < width)
    (hpieces : Alternating pieces) (hwords : pieces.tail ⊆ words)
    {before after : List (List Char)} {line : List Char} (hlines : lines = before ++ line :: after)
    (hlast : line.getLast? = some ' ') :
    line.length = width ∧ ∃ word ∈ words, isSpaces word = false ∧ width < word.length ∧
      after.head? = some (word.take (cutLength width word)) := by
  induction h generalizing before with
  | stop => simp at hlines
  | @skip isFirst pieces rest lines hround hrun ih =>
    have hstart : Alternating (lineStart isFirst pieces) := hpieces.suffix (lineStart_suffix _ _)
    exact ih (hround.alternating hwidth hstart) (List.Subset.trans hround.tail_subset hwords) hlines
  | @write isFirst pieces placed rest lines hround hplaced hrun ih =>
    have hstart : Alternating (lineStart isFirst pieces) := hpieces.suffix (lineStart_suffix _ _)
    have hrest : Alternating rest := hround.alternating hwidth hstart
    rcases List.cons_eq_append_iff.1 hlines with ⟨rfl, heq⟩ | ⟨before, rfl, rfl⟩
    · obtain ⟨rfl, rfl⟩ := List.cons.inj heq
      obtain ⟨word, ahead, hword, rfl, -, hlength, hspaces, hlong⟩ :=
        hround.getLast?_eq_space hwidth hstart hlast
      obtain ⟨first, placed, rfl⟩ := List.exists_cons_of_ne_nil hplaced
      -- the word stands behind the first piece of the line
      have hmem : word ∈ (lineStart isFirst pieces).tail := by
        rw [hword, List.cons_append, List.tail_cons]
        exact List.mem_append_right _ List.mem_cons_self
      exact ⟨hlength, word, hwords (lineStart_tail_subset _ _ hmem), hspaces, hlong,
        hrun.head?_of_long_word hwidth hlong hspaces (hrest.unmixed word List.mem_cons_self)⟩
    · exact ih hrest (List.Subset.trans hround.tail_subset hwords) rfl

/-- **Where a line ends with a blank.**  Such a line is full to the last column, and the next
line is the front of a word of the text that is longer than the width. -/
theorem wrap_space_end {width : Nat} {text : List Char} {before after : List (List Char)}
    {line : List Char} {c : Char} (hlines : wrap width text = before ++ line :: after)
    (hlast : line.getLast? = some c) (hblank : isBlank c = true) :
    c = ' ' ∧ line.length = width ∧
      ∃ word ∈ chunks (text.map blankToSpace), ' ' ∉ word ∧ width < word.length ∧
        after.head? = some (word.take (cutLength width word)) := by
  have hline : line ∈ wrap width text := by simp [hlines]
  obtain rfl : c = ' ' := wrap_blank_eq_space hline (List.mem_of_getLast? hlast) hblank
  have hrun := run_wrap width text
  have hchunks := alternating_chunks (text.map blankToSpace)
  rcases Nat.eq_zero_or_pos width with rfl | hwidth
  · obtain ⟨d, hd, rfl⟩ := hrun.eq_singleton (.whole hchunks) line hline
    exact absurd (Option.some.inj hlast) hd
  · obtain ⟨hlength, word, hword, hspaces, hlong, hafter⟩ :=
      hrun.space_end hwidth hchunks (fun p hp => List.mem_of_mem_tail hp) hlines hlast
    refine ⟨rfl, hlength, word, hword, ?_, hlong, hafter⟩
    exact (hchunks.unmixed word hword).resolve_left (by simp [hspaces])

/-- The spaces of the first line fill it up, and stay. -/
theorem wrap_a_bcd : wrap 2 "a bcd".toList = ["a ".toList, "bc".toList, "d".toList] := by cbv

theorem wrap_space_end_a_bcd :
    wrap 2 "a bcd".toList = [] ++ "a ".toList :: ["bc".toList, "d".toList] ∧
      ' ' = ' ' ∧ "a ".toList.length = 2 ∧
      ∃ word ∈ chunks ("a bcd".toList.map blankToSpace), ' ' ∉ word ∧ 2 < word.length ∧
        ["bc".toList, "d".toList].head? = some (word.take (cutLength 2 word)) := by
  have hlines : wrap 2 "a bcd".toList = [] ++ "a ".toList :: ["bc".toList, "d".toList] :=
    wrap_a_bcd
  exact ⟨hlines, wrap_space_end hlines rfl (by decide)⟩

/-- A line may end with a blank. -/
theorem wrap_full_line_space :
    ¬∀ (width : Nat) (text : List Char), ∀ line ∈ wrap width text, ∀ c ∈ line.getLast?,
      isBlank c = false := by
  intro h
  have hline : "a ".toList ∈ wrap 2 "a bcd".toList := by
    rw [wrap_a_bcd]
    exact List.mem_cons_self
  exact absurd (h 2 _ _ hline ' ' rfl) (by decide)

end ExposureKit.Wrap
