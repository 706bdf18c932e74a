import ExposureKit.Proofs.Text.AppendedText
import ExposureKit.Proofs.Text.FewestLines

/-!
# Words with single blanks between them

Where no word has a hyphen and no two blanks stand together, the chunks of a text are its words
and the spaces between them (`chunksAfter_intercalate`).  If every word fits on a line, no round
cuts anything: it places some words, and the one space behind them is left off, at the end of the
line or in front of the next (`Round.exists_words`).  So a space is lost wherever a line breaks,
and putting one back there gives the text again (`Run.intercalate_eq`).

The main result is `wrap_plain_words`.
-/

namespace ExposureKit

variable {words : List (List Char)} {word : List Char}

/-! ## Words with separators between them -/

theorem blankToSpace_blankToSpace (c : Char) : blankToSpace (blankToSpace c) = blankToSpace c := by
  by_cases hc : isBlank c = true
  · rw [blankToSpace_eq_space_iff.2 hc, blankToSpace_eq_space_iff.2 isBlank_space]
  · have hkept : blankToSpace c = c := if_neg hc
    rw [hkept, hkept]

/-- Words in a row: the first, and each of the others behind the character that stands between it
and the word before. -/
def wordRow (first : List Char) (others : List (Char × List Char)) : List Char :=
  first ++ others.flatMap fun part => part.1 :: part.2

/-- A word without blanks and hyphens. -/
structure PlainWord (word : List Char) : Prop where
  /-- It has a character. -/
  ne_nil : word ≠ []
  /-- No character of it separates words. -/
  not_blank : ∀ c ∈ word, isBlank c = false
  /-- No character of it is a hyphen. -/
  not_hyphen : '-' ∉ word

theorem plainWord_iff :
    PlainWord word ↔ word ≠ [] ∧ word.all (fun c => !isBlank c && c != '-') = true := by
  constructor
  · intro h
    refine ⟨h.ne_nil, List.all_eq_true.2 fun c hc => ?_⟩
    have hhyphen : c ≠ '-' := by
      rintro rfl
      exact h.not_hyphen hc
    simp [h.not_blank c hc, hhyphen]
  · rintro ⟨hne, hall⟩
    rw [List.all_eq_true] at hall
    refine ⟨hne, fun c hc => ?_, fun hhyphen => ?_⟩
    · have hc := hall c hc
      simp only [Bool.and_eq_true, Bool.not_eq_true'] at hc
      exact hc.1
    · have hc := hall '-' hhyphen
      simp at hc

instance (word : List Char) : Decidable (PlainWord word) := decidable_of_iff _ plainWord_iff.symm

theorem PlainWord.space_notMem (h : PlainWord word) : ' ' ∉ word := by
  intro hspace
  have hblank := h.not_blank ' ' hspace
  rw [isBlank_space] at hblank
  cases hblank

theorem PlainWord.isSpaces_eq_false (h : PlainWord word) : Wrap.isSpaces word = false := by
  obtain ⟨c, rest, rfl⟩ := List.exists_cons_of_ne_nil h.ne_nil
  refine Wrap.isSpaces_eq_false List.mem_cons_self ?_
  rintro rfl
  exact h.space_notMem List.mem_cons_self

theorem PlainWord.map_blankToSpace (h : PlainWord word) : word.map blankToSpace = word := by
  have hsame : ∀ c ∈ word, blankToSpace c = id c := by
    intro c hc
    rw [blankToSpace, if_neg (by simp [h.not_blank c hc]), id]
  rw [List.map_congr_left hsame, List.map_id]

/-- Written with plain spaces, words in a row are the words with spaces between them. -/
theorem map_blankToSpace_wordRow {first : List Char} {others : List (Char × List Char)}
    (hwords : ∀ word ∈ first :: others.map Prod.snd, PlainWord word)
    (hblanks : ∀ part ∈ others, isBlank part.1 = true) :
    (wordRow first others).map blankToSpace =
      [' '].intercalate (first :: others.map Prod.snd) := by
  induction others generalizing first with
  | nil => simp [wordRow, (hwords first (by simp)).map_blankToSpace]
  | cons part others ih =>
    obtain ⟨hfirst, hothers⟩ := List.forall_mem_cons.1 hwords
    obtain ⟨hblank, hblanks⟩ := List.forall_mem_cons.1 hblanks
    have hrow : wordRow first (part :: others) = first ++ part.1 :: wordRow part.2 others := by
      rw [wordRow, List.flatMap_cons, List.cons_append, wordRow]
    rw [hrow, List.map_append, hfirst.map_blankToSpace, List.map_cons, ih hothers hblanks,
      blankToSpace_eq_space_iff.2 hblank, List.map_cons, List.intercalate_cons_cons]
    simp

/-! ## The chunks of plain words -/

/-- A word without spaces and hyphens is passed to its end. -/
theorem wordLength_eq (hspace : ' ' ∉ word) (hhyphen : '-' ∉ word) (length : Nat)
    (behind : List Char) : wordLength length behind word = length + word.length := by
  induction word generalizing length behind with
  | nil => rfl
  | cons c word ih =>
    rw [List.mem_cons, not_or] at hspace hhyphen
    have hc : c ≠ '-' := Ne.symm hhyphen.1
    rw [wordLength, if_neg (Ne.symm hspace.1), if_neg (by simp [hc]), dashLength?_of_ne hc,
      ih hspace.2 hhyphen.2, List.length_cons]
    simp
    omega

/-- A plain word is a chunk. -/
theorem PlainWord.chunksAfter_eq (h : PlainWord word) (behind : List Char) :
    chunksAfter behind word = [word] := by
  have hlength : chunkLength behind word = word.length := by
    have hspace := h.space_notMem
    have hhyphen := h.not_hyphen
    cases word with
    | nil => exact absurd rfl h.ne_nil
    | cons c word =>
      rw [List.mem_cons, not_or] at hspace hhyphen
      rw [chunkLength, if_neg (Ne.symm hspace.1), dashLength?_of_ne (Ne.symm hhyphen.1)]
      dsimp only
      rw [wordLength_eq hspace.2 hhyphen.2, List.length_cons, Nat.add_comm]
  rw [chunksAfter_of_ne_nil behind h.ne_nil, hlength, List.take_length, List.drop_length,
    chunksAfter_nil]

/-- A single space is a chunk. -/
theorem chunksAfter_space (behind : List Char) {text : List Char} (htext : text.head? ≠ some ' ') :
    chunksAfter behind (' ' :: text) = [' '] :: chunksAfter (' ' :: behind) text := by
  have htake : text.takeWhile (· == ' ') = [] := by
    cases text with
    | nil => rfl
    | cons c text => simpa using htext
  have hlength : chunkLength behind (' ' :: text) = 1 := by
    rw [chunkLength, if_pos rfl, List.takeWhile_cons_of_pos (by decide), htake]
    rfl
  rw [chunksAfter_of_ne_nil behind (by simp), hlength]
  rfl

theorem PlainWord.head?_intercalate_ne_space (h : PlainWord word) (words : List (List Char)) :
    ([' '].intercalate (word :: words)).head? ≠ some ' ' := by
  obtain ⟨c, rest, rfl⟩ := List.exists_cons_of_ne_nil h.ne_nil
  have hc : c ≠ ' ' := fun hc => h.space_notMem (by simp [hc])
  cases words <;> simpa [List.intercalate_cons_cons] using hc

/-- The chunks of words with single spaces between them. -/
theorem chunksAfter_intercalate (hwords : ∀ word ∈ words, PlainWord word) (behind : List Char) :
    chunksAfter behind ([' '].intercalate words) = words.intersperse [' '] := by
  induction words generalizing behind with
  | nil => exact chunksAfter_nil behind
  | cons word words ih =>
    obtain ⟨hword, hothers⟩ := List.forall_mem_cons.1 hwords
    cases words with
    | nil => rw [List.intercalate_singleton, hword.chunksAfter_eq, List.intersperse_singleton]
    | cons next words =>
      have hlast : word.getLast? ≠ some ' ' :=
        fun hlast => hword.space_notMem (List.mem_of_getLast? hlast)
      have hnext := (hothers next (by simp)).head?_intercalate_ne_space words
      rw [List.intercalate_cons_cons, List.append_assoc, List.singleton_append,
        chunksAfter_append_space behind hlast, hword.chunksAfter_eq, chunksAfter_space _ hnext,
        ih hothers, List.intersperse_cons_cons, List.singleton_append]

namespace Wrap

variable {width : Nat} {isFirst : Bool} {pieces line rest lines : List (List Char)}

/-! ## Words and the spaces between them -/

/-- A row of items with separators is cut in two behind an item or in front of one. -/
theorem exists_of_append_eq_intersperse {α : Type} {separator : α} {front back items : List α}
    (h : front ++ back = items.intersperse separator) :
    ∃ before after, items = before ++ after ∧
      (front = before.intersperse separator ∨
        before ≠ [] ∧ front = before.intersperse separator ++ [separator]) ∧
      (back = after.intersperse separator ∨ back = separator :: after.intersperse separator) := by
  induction items generalizing front with
  | nil =>
    obtain ⟨rfl, rfl⟩ := List.append_eq_nil_iff.1 h
    exact ⟨[], [], rfl, .inl rfl, .inl rfl⟩
  | cons item items ih =>
    cases front with
    | nil => exact ⟨[], item :: items, rfl, .inl rfl, .inl h⟩
    | cons first front =>
      cases items with
      | nil =>
        obtain ⟨rfl, hnil⟩ := List.cons.inj h
        obtain ⟨rfl, rfl⟩ := List.append_eq_nil_iff.1 hnil
        exact ⟨[first], [], rfl, .inl rfl, .inl rfl⟩
      | cons next items =>
        obtain ⟨rfl, hrest⟩ := List.cons.inj h
        cases front with
        | nil => exact ⟨[first], next :: items, rfl, .inl rfl, .inr hrest⟩
        | cons second front =>
          obtain ⟨rfl, hrest⟩ := List.cons.inj hrest
          obtain ⟨before, after, hitems, hfront, hback⟩ := ih hrest
          refine ⟨first :: before, after, by rw [hitems, List.cons_append], ?_, hback⟩
          cases before with
          | nil =>
            obtain rfl : front = [] := hfront.resolve_right fun h => h.1 rfl
            exact .inr ⟨by simp, rfl⟩
          | cons third before =>
            rcases hfront with rfl | ⟨-, rfl⟩
            · exact .inl rfl
            · exact .inr ⟨by simp, rfl⟩

theorem exists_intersperse_eq_cons {α : Type} (separator item : α) (items : List α) :
    ∃ rest, (item :: items).intersperse separator = item :: rest := by
  cases items with
  | nil => exact ⟨[], rfl⟩
  | cons next items => exact ⟨_, List.intersperse_cons_cons⟩

theorem exists_intersperse_eq_concat {α : Type} (separator item : α) (items : List α) :
    ∃ front, (items ++ [item]).intersperse separator = front ++ [item] := by
  induction items with
  | nil => exact ⟨[], rfl⟩
  | cons first items ih =>
    obtain ⟨front, hfront⟩ := ih
    obtain ⟨next, rest, hnext⟩ : ∃ next rest, items ++ [item] = next :: rest :=
      List.exists_cons_of_ne_nil (by simp)
    refine ⟨first :: separator :: front, ?_⟩
    rw [List.cons_append, hnext, List.intersperse_cons_cons, ← hnext, hfront]
    rfl

theorem intersperse_ne_nil {α : Type} {separator : α} {items : List α} (h : items ≠ []) :
    items.intersperse separator ≠ [] := by
  obtain ⟨item, items, rfl⟩ := List.exists_cons_of_ne_nil h
  obtain ⟨rest, hrest⟩ := exists_intersperse_eq_cons separator item items
  rw [hrest]
  exact List.cons_ne_nil item rest

theorem mem_or_eq_of_mem_intersperse {α : Type} {separator item : α} {items : List α}
    (h : item ∈ items.intersperse separator) : item ∈ items ∨ item = separator := by
  induction items with
  | nil => cases h
  | cons first items ih =>
    cases items with
    | nil => exact .inl h
    | cons next items =>
      rw [List.intersperse_cons_cons, List.mem_cons, List.mem_cons] at h
      rcases h with rfl | rfl | h
      · exact .inl List.mem_cons_self
      · exact .inr rfl
      · exact (ih h).imp_left (List.mem_cons_of_mem first)

theorem isSpaces_space : isSpaces [' '] = true := by decide

theorem dropSpaces_intersperse (hwords : ∀ word ∈ words, isSpaces word = false) :
    dropSpaces (words.intersperse [' ']) = words.intersperse [' '] := by
  cases words with
  | nil => rfl
  | cons word words =>
    obtain ⟨rest, hrest⟩ := exists_intersperse_eq_cons [' '] word words
    rw [hrest, dropSpaces, if_neg (by simp [hwords word List.mem_cons_self])]

theorem dropEndSpaces_intersperse (hwords : ∀ word ∈ words, isSpaces word = false) :
    dropEndSpaces (words.intersperse [' ']) = words.intersperse [' '] := by
  rcases List.eq_nil_or_concat words with rfl | ⟨words, word, rfl⟩
  · rfl
  · obtain ⟨front, hfront⟩ := exists_intersperse_eq_concat [' '] word words
    rw [List.concat_eq_append] at hwords ⊢
    rw [hfront, dropEndSpaces_concat, if_neg (by simp [hwords word (by simp)])]

theorem intercalate_append {separator : List Char} {before after : List (List Char)}
    (hbefore : before ≠ []) (hafter : after ≠ []) :
    separator.intercalate (before ++ after) =
      separator.intercalate before ++ separator ++ separator.intercalate after := by
  induction before with
  | nil => exact absurd rfl hbefore
  | cons item before ih =>
    by_cases hnil : before = []
    · rw [hnil, List.singleton_append, List.intercalate_cons_of_ne_nil hafter,
        List.intercalate_singleton]
    · rw [List.cons_append, List.intercalate_cons_of_ne_nil (by simp [hnil]), ih hnil,
        List.intercalate_cons_of_ne_nil hnil]
      simp only [List.append_assoc]

/-! ## A round -/

/-- A round places words with the spaces between them, and goes on with a word. -/
theorem Round.exists_words (h : Round width (words.intersperse [' ']) line rest)
    (hne : words ≠ []) (hwords : ∀ word ∈ words, isSpaces word = false ∧ word.length ≤ width) :
    ∃ placed left, words = placed ++ left ∧ placed ≠ [] ∧ line = placed.intersperse [' '] ∧
      lineStart false rest = left.intersperse [' '] := by
  obtain ⟨word, others, rfl⟩ := List.exists_cons_of_ne_nil hne
  obtain ⟨hword, hfits⟩ := hwords word List.mem_cons_self
  generalize hall : (word :: others).intersperse [' '] = pieces at h
  cases h with
  | @filled front rest hroom hnext =>
    obtain ⟨placed, left, hsplit, hfront, hrest⟩ := exists_of_append_eq_intersperse hall.symm
    have hspaces : ∀ other ∈ placed ++ left, isSpaces other = false :=
      fun other hother => (hwords other (hsplit ▸ hother)).1
    obtain ⟨hplaced, hleft⟩ := List.forall_mem_append.1 hspaces
    refine ⟨placed, left, hsplit, ?_, ?_, ?_⟩
    · -- the first word would have found room
      rintro rfl
      obtain rfl : front = [] := hfront.resolve_right fun h => h.1 rfl
      obtain ⟨behind, hbehind⟩ := exists_intersperse_eq_cons [' '] word others
      have hlt := (hnext word (by rw [← List.nil_append rest, ← hall, hbehind]; rfl)).1
      rw [List.flatten_nil, List.length_nil] at hlt
      omega
    · rcases hfront with rfl | ⟨-, rfl⟩
      · exact dropEndSpaces_intersperse hplaced
      · rw [dropEndSpaces_concat, if_pos isSpaces_space]
    · rw [lineStart, if_neg (by decide)]
      rcases hrest with rfl | rfl
      · exact dropSpaces_intersperse hleft
      · rw [dropSpaces, if_pos isSpaces_space]
  | @broken front rest piece hroom hlong =>
    have hpos : word ≠ [] := by
      rintro rfl
      cases hword
    rcases mem_or_eq_of_mem_intersperse (hall ▸ List.mem_append_right _ List.mem_cons_self) with
      hmem | rfl
    · have := (hwords piece hmem).2
      omega
    · have := List.length_pos_iff.2 hpos
      rw [List.length_singleton] at hlong
      omega

/-! ## All rounds -/

/-- The lines of words, with a space between any two of them, are the words again. -/
theorem Run.intercalate_eq (h : Run width isFirst pieces lines) (hne : words ≠ [])
    (hstart : lineStart isFirst pieces = words.intersperse [' '])
    (hwords : ∀ word ∈ words, isSpaces word = false ∧ word.length ≤ width) :
    lines ≠ [] ∧ [' '].intercalate lines = [' '].intercalate words := by
  induction h generalizing words with
  | @stop isFirst =>
    have hnil : lineStart isFirst [] = [] := by cases isFirst <;> rfl
    exact absurd (hstart.symm.trans hnil) (intersperse_ne_nil hne)
  | skip hround =>
    rw [hstart] at hround
    obtain ⟨placed, left, -, hplaced, hline, -⟩ := hround.exists_words hne hwords
    exact absurd hline.symm (intersperse_ne_nil hplaced)
  | @write isFirst pieces line rest lines hround hline hrun ih =>
    rw [hstart] at hround
    obtain ⟨placed, left, rfl, hplaced, rfl, hrest⟩ := hround.exists_words hne hwords
    refine ⟨by simp, ?_⟩
    have hflatten : (placed.intersperse [' ']).flatten = [' '].intercalate placed := rfl
    by_cases hend : left = []
    · rw [hrun.of_nil (by rw [hrest, hend, List.intersperse_nil]), hend, List.append_nil,
        List.intercalate_singleton, hflatten]
    · obtain ⟨hlines, hjoined⟩ :=
        ih hend hrest fun word hword => hwords word (List.mem_append_right _ hword)
      rw [List.intercalate_cons_of_ne_nil hlines, hjoined, hflatten,
        intercalate_append hplaced hend]

/-- Blanks and plain spaces are the same to the filling loop. -/
theorem wrap_map_blankToSpace (width : Nat) (text : List Char) :
    wrap width (text.map blankToSpace) = wrap width text := by
  have htwice : (text.map blankToSpace).map blankToSpace = text.map blankToSpace := by
    rw [List.map_map]
    exact List.map_congr_left fun c _ => blankToSpace_blankToSpace c
  rw [wrap, htwice, wrap]

/-- **Plain words survive.**  The lines of plain words with one blank between neighbours, none of
the words longer than the width, are the words again once they are joined with spaces; and at
whatever width, the joined lines are filled into the same lines as the text. -/
theorem wrap_plain_words {first : List Char} {others : List (Char × List Char)} {width : Nat}
    (hwords : ∀ word ∈ first :: others.map Prod.snd, PlainWord word ∧ word.length ≤ width)
    (hblanks : ∀ part ∈ others, isBlank part.1 = true) :
    [' '].intercalate (wrap width (wordRow first others)) =
      [' '].intercalate (first :: others.map Prod.snd) ∧
    ∀ otherWidth, wrap otherWidth ([' '].intercalate (wrap width (wordRow first others))) =
      wrap otherWidth (wordRow first others) := by
  have hplain : ∀ word ∈ first :: others.map Prod.snd, PlainWord word :=
    fun word hword => (hwords word hword).1
  have htext := map_blankToSpace_wordRow hplain hblanks
  have hrun := run_wrap width (wordRow first others)
  rw [htext, chunks_eq, chunksAfter_intercalate hplain] at hrun
  obtain ⟨-, hjoined⟩ := hrun.intercalate_eq (List.cons_ne_nil _ _) rfl
    fun word hword => ⟨(hplain word hword).isSpaces_eq_false, (hwords word hword).2⟩
  refine ⟨hjoined, fun otherWidth => ?_⟩
  rw [hjoined, ← htext, wrap_map_blankToSpace]

/-- Two words fill a line to its last column, so that the blank behind them is in front of the
next. -/
theorem wrap_plain_words_three :
    let others := [('\t', "bb".toList), ('\n', "c".toList)]
    let text := wordRow "aa".toList others
    wrap 5 text = ["aa bb".toList, "c".toList] ∧
      (∀ word ∈ "aa".toList :: others.map Prod.snd, PlainWord word ∧ word.length ≤ 5) ∧
      (∀ part ∈ others, isBlank part.1 = true) ∧
      [' '].intercalate (wrap 5 text) = [' '].intercalate ("aa".toList :: others.map Prod.snd) ∧
      ∀ otherWidth, wrap otherWidth ([' '].intercalate (wrap 5 text)) = wrap otherWidth text := by
  intro others text
  have hwords : ∀ word ∈ "aa".toList :: others.map Prod.snd, PlainWord word ∧ word.length ≤ 5 := by
    decide
  have hblanks : ∀ part ∈ others, isBlank part.1 = true := by decide
  exact ⟨by decide +kernel, hwords, hblanks, wrap_plain_words hwords hblanks⟩

end Wrap

end ExposureKit
