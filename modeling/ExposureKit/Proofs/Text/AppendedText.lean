import ExposureKit.Proofs.Text.ChunkJoints
import ExposureKit.Proofs.Text.WrapRounds

/-!
# Text that goes on

A text goes on behind a space.  The scanner looks ahead, over the letters behind a hyphen and
over all hyphens of a dash, but a space is neither a letter nor a hyphen nor part of a word: to
the scanner it is as good as the end of the text (`chunkLength_append_space`), and the chunks
before it are those of the text alone (`chunksAfter_append_space`).

The filling loop looks at the chunk that comes next.  As long as a round leaves pieces, the next
one does not come from what was added (`nextLine_append`), and so only the line of the last
round can change (`dropLast_linesFrom_append`).

The main result is `wrap_finished_lines`.
-/

namespace ExposureKit

variable {behind ahead : List Char}

/-! ## A space ahead of the scanner -/

theorem isWordChar_space : isWordChar ' ' = false := by decide

/-- A space is no letter, and ends a search for letters as the end of the text does. -/
theorem lettersNext_append_space (ahead more : List Char) :
    lettersNext (ahead ++ ' ' :: more) = lettersNext ahead := by
  match ahead with
  | [] => cases more <;> simp [lettersNext, isLetter_space]
  | [a] => simp [lettersNext, isLetter_space]
  | [a, b] => simp [lettersNext, isLetter_space]
  | a :: b :: c :: rest => simp [lettersNext]

/-- A run of hyphens ends before a space, and what follows it begins as before or is the space. -/
theorem hyphens_append_space (rest more : List Char) :
    (rest ++ ' ' :: more).takeWhile (· == '-') = rest.takeWhile (· == '-') ∧
      (rest ++ ' ' :: more).dropWhile (· == '-') = rest.dropWhile (· == '-') ++ ' ' :: more := by
  induction rest with
  | nil => exact ⟨rfl, rfl⟩
  | cons c rest ih =>
    by_cases hc : c = '-'
    · simpa [hc] using ih
    · simp [hc]

/-- A word begins behind the text as it did, and none begins with a space. -/
theorem any_isWordChar_append_space (rest more : List Char) :
    (rest ++ ' ' :: more).head?.any isWordChar = rest.head?.any isWordChar := by
  cases rest with
  | nil => simp [isWordChar_space]
  | cons c rest => rfl

theorem dashLength?_append_space (behind ahead more : List Char) :
    dashLength? behind (ahead ++ ' ' :: more) = dashLength? behind ahead := by
  match ahead with
  | [] => exact dashLength?_of_ne (by decide)
  | [c] => simp [dashLength?]
  | c :: d :: rest =>
    by_cases hdash : c = '-' ∧ d = '-'
    · obtain ⟨rfl, rfl⟩ := hdash
      obtain ⟨hrun, hnext⟩ := hyphens_append_space rest more
      rw [List.cons_append, List.cons_append, dashLength?, dashLength?, hrun, hnext,
        any_isWordChar_append_space]
    · have hnone : ∀ text, dashLength? behind (c :: d :: text) = none := by
        intro text
        unfold dashLength?
        split
        · next heq =>
          cases heq
          exact absurd ⟨rfl, rfl⟩ hdash
        · rfl
      rw [List.cons_append, List.cons_append, hnone, hnone]

/-- A word that ends with the text ends before the space. -/
theorem wordLength_append_space (length : Nat) (behind ahead more : List Char) :
    wordLength length behind (ahead ++ ' ' :: more) = wordLength length behind ahead := by
  induction ahead generalizing length behind with
  | nil =>
    rw [List.nil_append, wordLength, wordLength]
    exact if_pos rfl
  | cons c ahead ih =>
    have hdash := dashLength?_append_space behind (c :: ahead) more
    rw [List.cons_append] at hdash ⊢
    rw [wordLength, wordLength, breaksHyphen, lettersNext_append_space, ← breaksHyphen, hdash, ih]

/-- Another character ends the text, so that a run of spaces in it ends before the space. -/
theorem chunkLength_append_space (hahead : ahead ≠ []) (hlast : ahead.getLast? ≠ some ' ')
    (behind more : List Char) :
    chunkLength behind (ahead ++ ' ' :: more) = chunkLength behind ahead := by
  cases ahead with
  | nil => exact absurd rfl hahead
  | cons c ahead =>
    have hdash := dashLength?_append_space behind (c :: ahead) more
    have hword : ∃ d ∈ c :: ahead, d ≠ ' ' := by
      refine ⟨(c :: ahead).getLast hahead, List.getLast_mem hahead, fun hspace => hlast ?_⟩
      rw [List.getLast?_eq_some_getLast hahead, hspace]
    have hspaces := takeWhile_append_of_word hword (' ' :: more)
    rw [List.cons_append] at hdash hspaces ⊢
    rw [chunkLength, chunkLength, hdash, hspaces, wordLength_append_space]

theorem wordLength_le (length : Nat) (behind ahead : List Char) :
    wordLength length behind ahead ≤ length + ahead.length := by
  induction ahead generalizing length behind with
  | nil => exact Nat.le_refl _
  | cons c ahead ih =>
    have := ih (length + 1) (c :: behind)
    rw [wordLength, List.length_cons]
    split_ifs <;> omega

/-- A chunk does not reach behind the end of the text. -/
theorem chunkLength_le (behind ahead : List Char) : chunkLength behind ahead ≤ ahead.length := by
  cases ahead with
  | nil => exact Nat.le_refl _
  | cons c ahead =>
    rw [chunkLength]
    split
    · exact (List.takeWhile_prefix _).length_le
    · split
      · next length hdash =>
        obtain ⟨-, -, -, d, back, -, hahead, -⟩ := dashLength?_eq_some_iff.1 hdash
        simp [hahead]
      · have := wordLength_le 1 (c :: behind) ahead
        rw [List.length_cons]
        omega

/-- The chunks of a text that goes on behind a space are those of the text, and then those of
what was added. -/
theorem chunksAfter_append_space (behind : List Char) (hlast : ahead.getLast? ≠ some ' ')
    (more : List Char) : chunksAfter behind (ahead ++ ' ' :: more) =
      chunksAfter behind ahead ++ chunksAfter (ahead.reverse ++ behind) (' ' :: more) := by
  fun_induction chunksAfter behind ahead with
  | case1 => rfl
  | case2 behind ahead hahead chunk ih =>
    have hle := chunkLength_le behind ahead
    have hrest : (ahead.drop (chunkLength behind ahead)).getLast? ≠ some ' ' := by
      rw [List.getLast?_drop]
      split
      · simp
      · exact hlast
    rw [chunksAfter_of_ne_nil behind (by simp), chunkLength_append_space hahead hlast,
      List.take_append_of_le_length hle, List.drop_append_of_le_length hle, ih hrest]
    rw [List.cons_append, ← List.append_assoc, ← List.reverse_append, List.take_append_drop]

theorem chunks_append_space {text : List Char} (hlast : text.getLast? ≠ some ' ')
    (more : List Char) :
    chunks (text ++ ' ' :: more) = chunks text ++ chunksAfter text.reverse (' ' :: more) := by
  rw [chunks_eq, chunksAfter_append_space [] hlast, List.append_nil, ← chunks_eq]

namespace Wrap

variable {width room : Nat} {isFirst : Bool} {line pieces : List (List Char)} {filling : Filling}

/-! ## A round with more pieces behind -/

/-- The line with more pieces behind those that are not on it. -/
def Filling.followedBy (filling : Filling) (more : List (List Char)) : Filling :=
  { filling with rest := filling.rest ++ more }

/-- Pieces that are left over keep those behind them off the line. -/
theorem fill_append (h : (fill room line pieces).rest ≠ []) (more : List (List Char)) :
    fill room line (pieces ++ more) = (fill room line pieces).followedBy more := by
  induction pieces generalizing room line with
  | nil => exact absurd rfl h
  | cons piece pieces ih =>
    rw [List.cons_append]
    rw [fill] at h ⊢
    rw [fill]
    split at h
    · next hfits =>
      rw [if_pos hfits, if_pos hfits]
      exact ih h
    · next hfits =>
      rw [if_neg hfits, if_neg hfits]
      rfl

/-- A piece is never used up by a cut. -/
theorem rest_breakLong_eq_nil_iff : (breakLong width filling).rest = [] ↔ filling.rest = [] := by
  rw [breakLong]
  split
  · next hnil => rw [hnil]
  · next hrest =>
    split <;> simp [hrest]

theorem breakLong_followedBy (h : filling.rest ≠ []) (more : List (List Char)) :
    breakLong width (filling.followedBy more) = (breakLong width filling).followedBy more := by
  obtain ⟨line, room, rest⟩ := filling
  cases rest with
  | nil => exact absurd rfl h
  | cons piece rest =>
    simp only [Filling.followedBy, breakLong, List.cons_append]
    split <;> rfl

theorem dropSpaces_append (hpieces : pieces ≠ []) (more : List (List Char)) :
    dropSpaces (pieces ++ more) = dropSpaces pieces ++ more := by
  cases pieces with
  | nil => exact absurd rfl hpieces
  | cons piece pieces =>
    rw [List.cons_append, dropSpaces, dropSpaces]
    split <;> rfl

theorem lineStart_append (hpieces : pieces ≠ []) (more : List (List Char)) :
    lineStart isFirst (pieces ++ more) = lineStart isFirst pieces ++ more := by
  rw [lineStart, lineStart, dropSpaces_append hpieces]
  split <;> rfl

/-- A round that leaves pieces writes the same line when there are more behind them. -/
theorem nextLine_append (hpieces : pieces ≠ []) (h : (nextLine width isFirst pieces).2 ≠ [])
    (more : List (List Char)) : nextLine width isFirst (pieces ++ more) =
      ((nextLine width isFirst pieces).1, (nextLine width isFirst pieces).2 ++ more) := by
  rw [nextLine, ← lineStart, Ne, rest_breakLong_eq_nil_iff] at h
  rw [nextLine, nextLine, ← lineStart, ← lineStart, lineStart_append hpieces, fill_append h,
    breakLong_followedBy h]
  rfl

/-! ## All rounds -/

/-- The lines before are written first. -/
theorem reverse_prefix_linesFrom (width : Nat) (done pieces : List (List Char)) :
    done.reverse <+: linesFrom width done pieces := by
  obtain ⟨lines, hlines, -⟩ := exists_run width done pieces
  exact ⟨lines, hlines.symm⟩

/-- More pieces change nothing but the line of the last round. -/
theorem dropLast_linesFrom_append (width : Nat) (done pieces more : List (List Char)) :
    (linesFrom width done pieces).dropLast <+: linesFrom width done (pieces ++ more) := by
  fun_induction linesFrom width done pieces with
  | case1 done => exact (List.dropLast_prefix _).trans (reverse_prefix_linesFrom _ _ _)
  | case2 done pieces hpieces next ih =>
    by_cases hrest : next.2 = []
    · -- this was the last round, and at most one line was written in it
      refine List.IsPrefix.trans ?_ (reverse_prefix_linesFrom width done _)
      rw [hrest, linesFrom, dif_pos rfl]
      split
      · exact List.dropLast_prefix _
      · have hdone : (next.1.flatten :: done).reverse.dropLast = done.reverse := by
          rw [List.reverse_cons, List.dropLast_concat]
        exact hdone ▸ List.prefix_rfl
    · have hpieces' : pieces ++ more ≠ [] := by simp [hpieces]
      rw [linesFrom.eq_def width done (pieces ++ more), dif_neg hpieces',
        nextLine_append hpieces hrest]
      exact ih

/-- **Finished lines stay.**  When a text that does not end with a blank goes on with one, all its
lines but the last are the first lines of the whole. -/
theorem wrap_finished_lines {text added : List Char}
    (hlast : ∀ c ∈ text.getLast?, isBlank c = false) (hfirst : ∃ c ∈ added.head?, isBlank c = true)
    (width : Nat) : (wrap width text).dropLast <+: wrap width (text ++ added) := by
  obtain ⟨c, hc, hblank⟩ := hfirst
  obtain ⟨added, rfl⟩ := List.head?_eq_some_iff.1 hc
  have hspace : (text.map blankToSpace).getLast? ≠ some ' ' := by
    rw [List.getLast?_map, Ne, Option.map_eq_some_iff]
    rintro ⟨d, hd, heq⟩
    rw [blankToSpace_eq_space_iff, hlast d hd] at heq
    cases heq
  rw [wrap, wrap, List.map_append, List.map_cons, blankToSpace_eq_space_iff.2 hblank,
    chunks_append_space hspace]
  exact dropLast_linesFrom_append width [] _ _

/-- A hyphen and a space are added to, and the last line with them. -/
theorem wrap_finished_lines_well_known :
    wrap 6 "well-known a-".toList = ["well-".toList, "known".toList, "a-".toList] ∧
      wrap 6 "well-known a-\tb".toList = ["well-".toList, "known".toList, "a- b".toList] ∧
      (∀ c ∈ "well-known a-".toList.getLast?, isBlank c = false) ∧
      (∃ c ∈ "\tb".toList.head?, isBlank c = true) ∧
      (wrap 6 "well-known a-".toList).dropLast <+:
        wrap 6 ("well-known a-".toList ++ "\tb".toList) := by
  have hlast : ∀ c ∈ "well-known a-".toList.getLast?, isBlank c = false := by
    intro c hc
    obtain rfl : c = '-' := (Option.some.inj hc).symm
    decide
  have hfirst : ∃ c ∈ "\tb".toList.head?, isBlank c = true := ⟨'\t', rfl, by decide⟩
  exact ⟨by decide +kernel, by decide +kernel, hlast, hfirst, wrap_finished_lines hlast hfirst 6⟩

end Wrap

end ExposureKit
