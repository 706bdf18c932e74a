import ExposureKit.Proofs.Text.FirstLine
import ExposureKit.Proofs.Text.FittingText

/-!
# The number of lines

Filling every line as far as it goes is as good as any other way to fill lines, if no word is
too long for a line.  A `Grouping` cuts the pieces of a text into groups, one for a line, and spaces
at the ends of a group do not count.

* `Round.suffix_of_group`: a round that begins with a group, or behind its start, places at least
  all the words of it.
* `Run.length_le_countP`: by induction on the groups, the run stays ahead of them.
* `Run.exists_grouping`: the lines of the run are such groups themselves.

The main result is `wrap_fewest_lines`.
-/

namespace ExposureKit.Wrap

variable {width : Nat} {isFirst : Bool} {pieces line rest lines later group : List (List Char)}
  {groups : List (List (List Char))} {word : List Char}

/-! ## Groups -/

/-- A group without the spaces at its two ends. -/
def trimmed (group : List (List Char)) : List (List Char) :=
  (group.rdropWhile isSpaces).dropWhile isSpaces

/-- Some piece of the group is a word. -/
def holdsWord (group : List (List Char)) : Bool := group.any (!isSpaces ·)

/-- The pieces, cut into groups each of which fits on a line. -/
structure Grouping (width : Nat) (pieces : List (List Char)) (groups : List (List (List Char))) :
    Prop where
  /-- The groups make up the pieces. -/
  flatten_eq : groups.flatten = pieces
  /-- A group fits, with the spaces at its ends left out. -/
  fits : ∀ group ∈ groups, (trimmed group).flatten.length ≤ width

theorem holdsWord_of_mem (hmem : word ∈ group) (hword : isSpaces word = false) :
    holdsWord group = true :=
  List.any_eq_true.2 ⟨word, hmem, by simp [hword]⟩

theorem length_flatten_le_of_infix {part whole : List (List Char)} (h : part <:+: whole) :
    part.flatten.length ≤ whole.flatten.length := by
  obtain ⟨before, after, rfl⟩ := h
  simp only [List.flatten_append, List.length_append]
  omega

/-- Spaces at the end of a group take no room. -/
theorem length_trimmed_append_le {front spaces : List (List Char)}
    (hspaces : ∀ piece ∈ spaces, isSpaces piece = true) :
    (trimmed (front ++ spaces)).flatten.length ≤ front.flatten.length := by
  rw [trimmed, rdropWhile_append_of_all front hspaces]
  exact length_flatten_le_of_infix
    ((List.dropWhile_suffix _).isInfix.trans (List.rdropWhile_prefix _ _).isInfix)

theorem rdropWhile_append_word (front after : List (List Char)) (hword : isSpaces word = false) :
    (front ++ word :: after).rdropWhile isSpaces = front ++ word :: after.rdropWhile isSpaces := by
  simp only [List.rdropWhile, List.reverse_append, List.reverse_cons, List.append_assoc,
    List.singleton_append, List.dropWhile_append]
  split
  · next hnone => simp [List.isEmpty_iff.1 hnone, hword]
  · simp

/-- A group has room for what follows one of its words. -/
theorem length_rdropWhile_le (front after : List (List Char)) (hword : isSpaces word = false) :
    ((word :: after).rdropWhile isSpaces).flatten.length ≤
      (trimmed (front ++ word :: after)).flatten.length := by
  have hback : (word :: after).rdropWhile isSpaces = word :: after.rdropWhile isSpaces :=
    rdropWhile_append_word [] after hword
  rw [trimmed, rdropWhile_append_word front after hword, hback, List.dropWhile_append]
  refine length_flatten_le_of_infix ?_
  split
  · rw [List.dropWhile_cons_of_neg (by simp [hword])]
  · exact (List.suffix_append _ _).isInfix

/-! ## A round and a group -/

/-- What is left of a group and the pieces behind it, if the group has one piece at most. -/
theorem suffix_of_append_eq {ending placed left : List (List Char)}
    (h : ending ++ later = placed ++ left) (hending : ending.length ≤ 1) :
    left <:+ later ∨ ∃ piece ∈ ending, left = piece :: later := by
  rcases List.append_eq_append_iff.1 h with ⟨between, rfl, rfl⟩ | ⟨between, rfl, rfl⟩
  · exact .inl (List.suffix_append _ _)
  · match between, hending with
    | [], _ => exact .inl List.suffix_rfl
    | [piece], _ => exact .inr ⟨piece, by simp, rfl⟩
    | _ :: _ :: _, hending =>
      simp only [List.length_append, List.length_cons] at hending
      omega

/-- Pieces of which no word is too long for a line. -/
structure Short (width : Nat) (pieces : List (List Char)) : Prop extends Alternating pieces where
  /-- A word fits on a line. -/
  fits : ∀ piece ∈ pieces, isSpaces piece = false → piece.length ≤ width

theorem Short.suffix (h : Short width pieces) (hrest : rest <:+ pieces) : Short width rest :=
  ⟨h.toAlternating.suffix hrest, fun piece hpiece => h.fits piece (hrest.subset hpiece)⟩

theorem Short.isSpaces_of_long (h : Short width pieces) {piece : List Char}
    (hmem : piece ∈ pieces) (hlong : width < piece.length) : isSpaces piece = true := by
  by_contra hword
  have := h.fits piece hmem (Bool.not_eq_true _ ▸ hword)
  omega

/-- A round that begins with a group takes all its words. -/
theorem Round.suffix_of_group (h : Round width (group ++ later) line rest)
    (hpieces : Short width (group ++ later))
    (hfits : (group.rdropWhile isSpaces).flatten.length ≤ width) : dropSpaces rest <:+ later := by
  have hending : (group.rtakeWhile isSpaces).length ≤ 1 := by
    refine (hpieces.toAlternating.part ?_).length_le_one fun _ => List.mem_rtakeWhile_imp
    exact (List.rtakeWhile_suffix isSpaces group).isInfix.trans (List.prefix_append _ _).isInfix
  have hgroup : group ++ later =
      group.rdropWhile isSpaces ++ (group.rtakeWhile isSpaces ++ later) := by
    rw [← List.append_assoc, List.rdropWhile_append_rtakeWhile]
  rw [hgroup] at h
  obtain ⟨placed, left, hleft, hround⟩ := h.exists_placed hfits
  have hsuffix := suffix_of_append_eq hleft hending
  rcases hround with ⟨-, rfl⟩ | ⟨piece, after, taken, rfl, hlong, -, rfl⟩
  · rcases hsuffix with hsuffix | ⟨piece, hpiece, rfl⟩
    · exact (dropSpaces_suffix rest).trans hsuffix
    · rw [dropSpaces, if_pos (List.mem_rtakeWhile_imp hpiece)]
  · have hspaces : isSpaces piece = true :=
      hpieces.isSpaces_of_long (by rw [hgroup, hleft]; simp) hlong
    rw [dropSpaces, if_pos (isSpaces_of_subset hspaces (List.drop_subset taken piece))]
    rcases hsuffix with hsuffix | ⟨_, -, heq⟩
    · exact (List.suffix_cons piece after).trans hsuffix
    · exact (List.cons.inj heq).2 ▸ List.suffix_rfl

/-! ## The run stays ahead -/

/-- Rounds shorten nothing but spaces. -/
theorem Round.short (h : Round width pieces line rest) (hwidth : 0 < width)
    (hpieces : Short width pieces) : Short width rest := by
  refine ⟨h.alternating hwidth hpieces.toAlternating, ?_⟩
  cases h with
  | filled => exact (hpieces.suffix (List.suffix_append _ _)).fits
  | @broken placed after piece hroom hlong =>
    have hafter : Short width (piece :: after) := hpieces.suffix (List.suffix_append _ _)
    refine List.forall_mem_cons.2 ⟨fun hword => ?_, (hafter.suffix (List.suffix_cons _ _)).fits⟩
    have hspaces : isSpaces piece = true := hafter.isSpaces_of_long List.mem_cons_self hlong
    rw [isSpaces_of_subset hspaces (List.drop_subset _ piece)] at hword
    cases hword

/-- Behind the first line, a round begins with a word if there is one. -/
theorem Alternating.lineStart_eq (h : Alternating pieces) : lineStart false pieces = [] ∨
    ∃ word after, lineStart false pieces = word :: after ∧ isSpaces word = false := by
  rw [lineStart, if_neg (by decide)]
  cases pieces with
  | nil => exact .inl rfl
  | cons piece pieces =>
    rw [dropSpaces]
    split
    · next hspaces =>
      cases pieces with
      | nil => exact .inl rfl
      | cons next pieces => exact .inr ⟨next, pieces, rfl, h.apart.rel hspaces⟩
    · next hword => exact .inr ⟨piece, pieces, rfl, Bool.not_eq_true _ ▸ hword⟩

theorem Run.of_nil (h : Run width isFirst pieces lines) (hpieces : lineStart isFirst pieces = []) :
    lines = [] := by
  refine h.of_spaces ?_
  cases isFirst with
  | false => exact hpieces
  | true =>
    rw [lineStart, if_pos rfl] at hpieces
    rw [hpieces]
    rfl

/-- A run that begins with a word writes a line first. -/
theorem Run.exists_line (h : Run width isFirst pieces lines) (hpieces : Short width pieces)
    (hstart : lineStart isFirst pieces = word :: later) (hword : isSpaces word = false) :
    ∃ line rest after, lines = (word :: line).flatten :: after ∧
      Round width (word :: later) (word :: line) rest ∧ Run width false rest after := by
  have hfits : word.length ≤ width :=
    hpieces.fits word ((lineStart_suffix isFirst pieces).subset (hstart ▸ List.mem_cons_self)) hword
  cases h with
  | stop => cases isFirst <;> cases hstart
  | skip hround =>
    rw [hstart] at hround
    obtain ⟨kept, hkept⟩ := hround.line_of_fitting_word hfits hword
    cases hkept
  | @write _ _ line rest after hround hline hrun =>
    rw [hstart] at hround
    obtain ⟨kept, rfl⟩ := hround.line_of_fitting_word hfits hword
    exact ⟨kept, rest, after, rfl, hround, hrun⟩

/-- **The run stays ahead.** -/
theorem Run.length_le_countP (h : Run width false pieces lines) (hwidth : 0 < width)
    (hpieces : Short width pieces)
    (hgroups : ∀ group ∈ groups, (trimmed group).flatten.length ≤ width)
    (hahead : lineStart false pieces <:+ groups.flatten) :
    lines.length ≤ groups.countP holdsWord := by
  induction groups generalizing pieces lines with
  | nil =>
    rw [h.of_nil (List.suffix_nil.1 hahead)]
    exact Nat.zero_le _
  | cons group groups ih =>
    obtain ⟨hgroup, hothers⟩ := List.forall_mem_cons.1 hgroups
    obtain ⟨behind, hbehind⟩ := hahead
    have hrest : lineStart false pieces <:+ groups.flatten →
        lines.length ≤ (group :: groups).countP holdsWord := by
      intro hahead
      rw [List.countP_cons]
      exact (ih h hpieces hothers hahead).trans (Nat.le_add_right _ _)
    rcases List.append_eq_append_iff.1 hbehind with ⟨front, rfl, hfront⟩ | ⟨front, rfl, hfront⟩
    · cases front with
      | nil => exact hrest (hfront ▸ List.suffix_rfl)
      | cons word after =>
        have hword : isSpaces word = false := by
          obtain hnil | ⟨_, _, hfirst, hword⟩ := hpieces.toAlternating.lineStart_eq
          · rw [hnil] at hfront
            cases hfront
          · rw [hfront] at hfirst
            exact (List.cons.inj hfirst).1 ▸ hword
        obtain ⟨line, rest, lines, rfl, hround, hrun⟩ := h.exists_line hpieces hfront hword
        have hkept : Short width (word :: (after ++ groups.flatten)) := by
          have := hpieces.suffix (lineStart_suffix false pieces)
          rwa [hfront] at this
        have hgroupRound : Round width ((word :: after) ++ groups.flatten) (word :: line) rest :=
          hround
        have hahead : lineStart false rest <:+ groups.flatten :=
          hgroupRound.suffix_of_group hkept
            ((length_rdropWhile_le behind after hword).trans hgroup)
        rw [List.length_cons, List.countP_cons_of_pos]
        · exact Nat.succ_le_succ (ih hrun (hround.short hwidth hkept) hothers hahead)
        · exact holdsWord_of_mem (by simp) hword
    · exact hrest ⟨front, hfront.symm⟩

/-! ## The lines as groups -/

/-- The pieces that a round takes off are a group that fits. -/
theorem Round.exists_group (h : Round width (word :: later) line rest)
    (hpieces : Short width (word :: later)) (hword : isSpaces word = false) (hmem : word ∈ line) :
    ∃ group, word :: later = group ++ lineStart false rest ∧
      (trimmed group).flatten.length ≤ width ∧ holdsWord group = true := by
  generalize hall : word :: later = pieces at h hpieces
  cases h with
  | @filled placed rest hroom =>
    obtain ⟨front, hfront, hspaces⟩ := exists_lineStart_eq false rest
    refine ⟨placed ++ front, ?_, (length_trimmed_append_le hspaces).trans hroom, ?_⟩
    · rw [List.append_assoc, ← hfront]
    · exact holdsWord_of_mem (List.mem_append_left _ ((dropEndSpaces_isPrefix _).subset hmem)) hword
  | @broken placed after piece hroom hlong =>
    have hspaces : isSpaces piece = true := hpieces.isSpaces_of_long (by simp) hlong
    have hstart : ∀ n, lineStart false (piece.drop n :: after) = after := fun n => by
      rw [lineStart, if_neg (by decide), dropSpaces,
        if_pos (isSpaces_of_subset hspaces (List.drop_subset n piece))]
    refine ⟨placed ++ [piece], ?_, (length_trimmed_append_le ?_).trans hroom, ?_⟩
    · rw [hstart, List.append_assoc, List.singleton_append]
    · simpa using hspaces
    · refine holdsWord_of_mem (List.mem_append_left _ ?_) hword
      refine (List.mem_append.1 ((dropEndSpaces_isPrefix _).subset hmem)).resolve_right ?_
      intro hpart
      rw [List.mem_singleton.1 hpart,
        isSpaces_of_subset hspaces (List.take_subset _ piece)] at hword
      cases hword

/-- The lines of a run are groups that fit. -/
theorem Run.exists_grouping (h : Run width false pieces lines) (hwidth : 0 < width)
    (hpieces : Short width pieces) : ∃ groups, Grouping width (lineStart false pieces) groups ∧
      groups.countP holdsWord = lines.length := by
  induction lines generalizing pieces with
  | nil =>
    obtain hnil | ⟨word, later, hstart, hword⟩ := hpieces.toAlternating.lineStart_eq
    · exact ⟨[], ⟨hnil.symm, by simp⟩, rfl⟩
    · obtain ⟨line, rest, after, hlines, -⟩ := h.exists_line hpieces hstart hword
      cases hlines
  | cons first lines ih =>
    obtain hnil | ⟨word, later, hstart, hword⟩ := hpieces.toAlternating.lineStart_eq
    · cases h.of_nil hnil
    · obtain ⟨line, rest, after, hlines, hround, hrun⟩ := h.exists_line hpieces hstart hword
      obtain ⟨rfl, rfl⟩ := List.cons.inj hlines
      have hkept : Short width (word :: later) :=
        hstart ▸ hpieces.suffix (lineStart_suffix false pieces)
      obtain ⟨group, hgroup, hfits, hholds⟩ := hround.exists_group hkept hword List.mem_cons_self
      obtain ⟨groups, ⟨hflatten, hgroups⟩, hcount⟩ := ih hrun (hround.short hwidth hkept)
      refine ⟨group :: groups, ⟨?_, List.forall_mem_cons.2 ⟨hfits, hgroups⟩⟩, ?_⟩
      · rw [List.flatten_cons, hflatten, hstart, hgroup]
      · rw [List.countP_cons_of_pos hholds, hcount, List.length_cons]

/-! ## All lines -/

/-- Where a word comes first, the first line is filled as any other. -/
theorem Run.of_first (h : Run width true pieces lines) (hpieces : Short width pieces)
    (hstart : lineStart false pieces = pieces) : Run width false pieces lines := by
  obtain hnil | ⟨word, later, hlater, hword⟩ := hpieces.toAlternating.lineStart_eq
  · obtain rfl : pieces = [] := hstart.symm.trans hnil
    rw [h.of_nil rfl]
    exact .stop
  · have hfirst : pieces = word :: later := hstart.symm.trans hlater
    obtain ⟨line, rest, after, rfl, hround, hrun⟩ := h.exists_line hpieces hfirst hword
    exact .write (hlater ▸ hround) (List.cons_ne_nil word line) hrun

/-- A text that does not begin with a space begins with a word. -/
theorem lineStart_chunks {text : List Char} (h : text.head? ≠ some ' ') :
    lineStart false (chunks text) = chunks text := by
  have hfirst : ∀ next ∈ (chunks text).head?, isSpaces next = false := by
    rw [chunks_eq]
    exact fun _ => isSpaces_head_chunksAfter h
  rw [lineStart, if_neg (by decide)]
  cases hchunks : chunks text with
  | nil => rfl
  | cons chunk rest =>
    have hword : isSpaces chunk = false := hfirst chunk (by rw [hchunks]; rfl)
    rw [dropSpaces, if_neg (by simp [hword])]

/-- **The fewest lines.**  The chunks of a text that begins with a word, and of which no word is
too long for a line, can be cut into as many groups as there are lines, and not into fewer.
Groups without a word are not counted. -/
theorem wrap_fewest_lines {text : List Char} (hwidth : 0 < width)
    (hstart : ∀ c ∈ text.head?, isBlank c = false)
    (hwords : ∀ chunk ∈ chunks (text.map blankToSpace),
      isSpaces chunk = false → chunk.length ≤ width) :
    (∃ groups, Grouping width (chunks (text.map blankToSpace)) groups ∧
      groups.countP holdsWord = (wrap width text).length) ∧
    ∀ groups, Grouping width (chunks (text.map blankToSpace)) groups →
      (wrap width text).length ≤ groups.countP holdsWord := by
  have hshort : Short width (chunks (text.map blankToSpace)) := ⟨alternating_chunks _, hwords⟩
  have hfirst : lineStart false (chunks (text.map blankToSpace)) =
      chunks (text.map blankToSpace) := by
    refine lineStart_chunks fun hspace => ?_
    rw [List.head?_map, Option.map_eq_some_iff] at hspace
    obtain ⟨c, hc, hblank⟩ := hspace
    rw [blankToSpace_eq_space_iff, hstart c hc] at hblank
    cases hblank
  have hrun := (run_wrap width text).of_first hshort hfirst
  constructor
  · have hgroups := hrun.exists_grouping hwidth hshort
    rwa [hfirst] at hgroups
  · intro groups hgroups
    refine hrun.length_le_countP hwidth hshort hgroups.fits ?_
    rw [hfirst, hgroups.flatten_eq]

theorem wrap_fewest_lines_aa_b_cc :
    0 < 5 ∧ (∀ c ∈ "aa   b cc".toList.head?, isBlank c = false) ∧
      chunks ("aa   b cc".toList.map blankToSpace) =
        ["aa".toList, "   ".toList, "b".toList, " ".toList, "cc".toList] ∧
      (∀ chunk ∈ chunks ("aa   b cc".toList.map blankToSpace),
        isSpaces chunk = false → chunk.length ≤ 5) ∧
      wrap 5 "aa   b cc".toList = ["aa".toList, "b cc".toList] ∧
      (∃ groups, Grouping 5 (chunks ("aa   b cc".toList.map blankToSpace)) groups ∧
        groups.countP holdsWord = (wrap 5 "aa   b cc".toList).length) ∧
      ∀ groups, Grouping 5 (chunks ("aa   b cc".toList.map blankToSpace)) groups →
        (wrap 5 "aa   b cc".toList).length ≤ groups.countP holdsWord := by
  have hstart : ∀ c ∈ "aa   b cc".toList.head?, isBlank c = false := by
    intro c hc
    obtain rfl : c = 'a' := (Option.some.inj hc).symm
    decide
  have hchunks : chunks ("aa   b cc".toList.map blankToSpace) =
      ["aa".toList, "   ".toList, "b".toList, " ".toList, "cc".toList] := by cbv
  have hwords : ∀ chunk ∈ chunks ("aa   b cc".toList.map blankToSpace),
      isSpaces chunk = false → chunk.length ≤ 5 := by
    rw [hchunks]
    decide
  exact ⟨by decide, hstart, hchunks, hwords, by cbv,
    wrap_fewest_lines (by decide) hstart hwords⟩

end ExposureKit.Wrap
