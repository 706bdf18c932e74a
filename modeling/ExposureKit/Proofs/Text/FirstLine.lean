import ExposureKit.Proofs.Text.TrailingSpaces

/-!
# The first line

The first line begins with the first piece, if that is a word: either the piece fits, and stands
in front of what else there is room for, or it is too long for any line, and the line is the
front of it.  A cut never takes less than two characters, for it keeps a hyphen only together
with what stands before it.

The main result is `wrap_front`: two characters that belong together stay together.
-/

namespace ExposureKit

/-! ## Two characters in one chunk -/

/-- Characters other than spaces and hyphens belong to the chunk of the character before. -/
theorem two_le_chunkLength {c d : Char} (hc : c ≠ ' ' ∧ c ≠ '-') (hd : d ≠ ' ' ∧ d ≠ '-')
    (behind rest : List Char) : 2 ≤ chunkLength behind (c :: d :: rest) := by
  rw [chunkLength, if_neg hc.1, dashLength?_of_ne hc.2]
  dsimp only
  rw [wordLength, if_neg hd.1, if_neg (by simp [hd.2]), dashLength?_of_ne hd.2]
  exact le_wordLength 2 (d :: c :: behind) rest

namespace Wrap

variable {width : Nat} {word : List Char} {pieces line rest lines : List (List Char)}

/-! ## The first piece on the first line -/

/-- A cut does not part the first two characters. -/
theorem two_le_cutLength {room : Nat} (hroom : 2 ≤ room) (piece : List Char) :
    2 ≤ cutLength room piece := by
  rw [cutLength]
  split
  · exact hroom
  · next before _ =>
    split
    · next hany =>
      have hbefore : before ≠ [] := by
        rintro rfl
        cases hany
      have := List.length_pos_iff.2 hbefore
      omega
    · exact hroom

theorem dropEndSpaces_cons_word (hword : isSpaces word = false) (placed : List (List Char)) :
    ∃ kept, dropEndSpaces (word :: placed) = word :: kept := by
  rcases List.eq_nil_or_concat placed with rfl | ⟨front, piece, rfl⟩
  · refine ⟨[], ?_⟩
    simp [dropEndSpaces, dropSpaces, hword]
  · rw [List.concat_eq_append, ← List.cons_append, dropEndSpaces_concat]
    split
    · exact ⟨front, rfl⟩
    · exact ⟨front ++ [piece], rfl⟩

/-- Where a word that fits comes first, the line begins with all of it. -/
theorem Round.line_of_fitting_word (h : Round width (word :: pieces) line rest)
    (hfits : word.length ≤ width) (hword : isSpaces word = false) :
    ∃ kept, line = word :: kept := by
  generalize hall : word :: pieces = all at h
  cases h with
  | @filled placed rest hroom hnext =>
    rcases List.cons_eq_append_iff.1 hall with ⟨rfl, rfl⟩ | ⟨placed, rfl, rfl⟩
    · obtain ⟨hlt, -⟩ := hnext word rfl
      rw [List.flatten_nil, List.length_nil] at hlt
      omega
    · exact dropEndSpaces_cons_word hword placed
  | @broken placed rest piece hroom hlong =>
    rcases List.cons_eq_append_iff.1 hall with ⟨rfl, heq⟩ | ⟨placed, rfl, rfl⟩
    · obtain ⟨rfl, rfl⟩ := List.cons.inj heq
      omega
    · exact dropEndSpaces_cons_word hword _

/-- A word that comes first stands on the line, or at least its first two characters do. -/
theorem Round.front_of_word (h : Round width (word :: pieces) line rest) (hwidth : 2 ≤ width)
    (hword : isSpaces word = false) (hunmixed : Unmixed word) :
    word.take 2 <+: line.flatten := by
  by_cases hfits : word.length ≤ width
  · obtain ⟨kept, rfl⟩ := h.line_of_fitting_word hfits hword
    rw [List.flatten_cons]
    exact (List.take_prefix 2 word).trans (List.prefix_append word kept.flatten)
  · have hlong : width < word.length := Nat.lt_of_not_le hfits
    rw [h.line_of_long_word (by omega) hlong hword hunmixed, List.flatten_singleton]
    exact List.take_prefix_take_left (two_le_cutLength hwidth word)

/-- The first line that is written begins as the first word does. -/
theorem Run.front_of_word (h : Run width true (word :: pieces) lines) (hwidth : 2 ≤ width)
    (hword : isSpaces word = false) (hunmixed : Unmixed word) :
    ∃ line after, lines = line :: after ∧ word.take 2 <+: line := by
  cases h with
  | skip hround =>
    -- a word is not empty, and so a line is written for it
    have hfront : word.take 2 <+: [] := hround.front_of_word hwidth hword hunmixed
    rw [List.prefix_nil, List.take_eq_nil_iff] at hfront
    rcases hfront with hzero | rfl
    · cases hzero
    · cases hword
  | write hround =>
    exact ⟨_, _, rfl, hround.front_of_word hwidth hword hunmixed⟩

/-- **The first two characters stand on the first line.**  That is so where neither is a space
or a hyphen. -/
theorem wrap_front {text rest : List Char} {c d : Char} (hwidth : 2 ≤ width)
    (htext : text.map blankToSpace = c :: d :: rest) (hc : c ≠ ' ' ∧ c ≠ '-')
    (hd : d ≠ ' ' ∧ d ≠ '-') :
    ∃ line lines, wrap width text = (c :: d :: line) :: lines := by
  have hrun := run_wrap width text
  have hchunks := alternating_chunks (text.map blankToSpace)
  have hlength : 2 ≤ chunkLength [] (c :: d :: rest) := two_le_chunkLength hc hd [] rest
  rw [htext, chunks_eq, chunksAfter_of_ne_nil [] (by simp)] at hrun hchunks
  have hfront : ((c :: d :: rest).take (chunkLength [] (c :: d :: rest))).take 2 = [c, d] := by
    rw [List.take_take, Nat.min_eq_left hlength]
    rfl
  have hword := isSpaces_eq_false (mem_take_chunkLength [] c (d :: rest)) hc.1
  obtain ⟨line, lines, hlines, hprefix⟩ :=
    hrun.front_of_word hwidth hword (hchunks.unmixed _ List.mem_cons_self)
  rw [hfront] at hprefix
  obtain ⟨line, rfl⟩ := hprefix
  exact ⟨line, lines, hlines⟩

end Wrap

end ExposureKit
