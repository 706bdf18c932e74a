import ExposureKit.Proofs.Text.ChunkShape
import ExposureKit.Proofs.Text.WrapConservation
import ExposureKit.Proofs.Text.WrapRounds

/-!
# Bounds on wrapped lines

The chunks of a text alternate between words and runs of spaces.  Where a line has a width,
every round leaves pieces that alternate again (`Round.alternating`), and so a line that is
not the first begins with a word.

Where a line has no width, a round takes a single character and may leave an empty piece
in front.  What is kept then is `Narrow`, and every line is one character that is no space
(`Run.eq_singleton`).

The main result is `wrap_line_bounds`.
-/

namespace ExposureKit.Wrap

variable {width : Nat} {isFirst : Bool} {pieces line rest lines : List (List Char)}

/-! ## Lines of a width -/

/-- A line is made of pieces that are not empty, if there are no others. -/
theorem Round.ne_nil_of_mem (h : Round width pieces line rest)
    (hpieces : ∀ piece ∈ pieces, piece ≠ []) : ∀ piece ∈ line, piece ≠ [] := by
  cases h with
  | filled =>
    intro piece hpiece
    exact hpieces piece (List.mem_append_left _ ((dropEndSpaces_isPrefix _).subset hpiece))
  | broken =>
    intro piece hpiece
    rw [dropEndSpaces_concat] at hpiece
    split at hpiece
    · exact hpieces piece (List.mem_append_left _ hpiece)
    · next hpart =>
      rcases List.mem_append.1 hpiece with hpiece | hpiece
      · exact hpieces piece (List.mem_append_left _ hpiece)
      · rw [List.mem_singleton.1 hpiece]
        exact fun hnil => hpart (by rw [hnil, isSpaces_nil])

theorem Round.flatten_ne_nil (h : Round width pieces line rest)
    (hpieces : ∀ piece ∈ pieces, piece ≠ []) (hline : line ≠ []) : line.flatten ≠ [] := by
  obtain ⟨piece, line, rfl⟩ := List.exists_cons_of_ne_nil hline
  rw [List.flatten_cons, Ne, List.append_eq_nil_iff, not_and]
  exact fun hnil => absurd hnil (h.ne_nil_of_mem hpieces piece List.mem_cons_self)

/-- What is left alternates, for a piece that is cut leaves something of its own kind. -/
theorem Round.alternating (h : Round width pieces line rest) (hwidth : 0 < width)
    (hpieces : Alternating pieces) : Alternating rest := by
  cases h with
  | filled => exact hpieces.suffix (List.suffix_append _ _)
  | @broken placed rest piece hroom hlong =>
    have hrest : Alternating (piece :: rest) := hpieces.suffix (List.suffix_append _ _)
    have hcut : cutLength (cutRoom width placed) piece < piece.length := by
      refine Nat.lt_of_le_of_lt (cutLength_le _ _) ?_
      rw [cutRoom]
      split <;> omega
    have hleft : piece.drop (cutLength (cutRoom width placed) piece) ≠ [] := by
      rw [Ne, List.drop_eq_nil_iff]
      omega
    have hsub : ∀ c ∈ piece.drop (cutLength (cutRoom width placed) piece), c ∈ piece :=
      fun c hc => List.mem_of_mem_drop hc
    have hunmixed : Unmixed piece := hrest.unmixed piece List.mem_cons_self
    refine (hrest.suffix (List.suffix_cons _ _)).cons hleft (hunmixed.of_subset hsub) ?_
    intro next hnext hspaces
    exact hrest.apart.rel_head? hnext (hunmixed.isSpaces_of_part hsub hspaces hleft)

theorem dropSpaces_suffix (pieces : List (List Char)) : dropSpaces pieces <:+ pieces := by
  cases pieces with
  | nil => exact List.suffix_rfl
  | cons piece pieces =>
    rw [dropSpaces]
    split
    · exact List.suffix_cons _ _
    · exact List.suffix_rfl

theorem lineStart_suffix (isFirst : Bool) (pieces : List (List Char)) :
    lineStart isFirst pieces <:+ pieces := by
  rw [lineStart]
  split
  · exact List.suffix_rfl
  · exact dropSpaces_suffix pieces

/-- A word begins with another character than a space. -/
theorem head?_flatten_ne_space {word : List Char} (hword : isSpaces word = false)
    (hunmixed : Unmixed word) (pieces : List (List Char)) :
    (word :: pieces).flatten.head? ≠ some ' ' := by
  cases word with
  | nil => cases hword
  | cons c word =>
    rcases hunmixed with h | h
    · rw [h] at hword
      cases hword
    · simp only [List.flatten_cons, List.cons_append, List.head?_cons]
      exact fun hc => h (by simp [Option.some.inj hc])

/-- Behind the first line, alternating pieces are filled in from a word on. -/
theorem Alternating.head?_flatten_lineStart (h : Alternating pieces) :
    (lineStart false pieces).flatten.head? ≠ some ' ' := by
  rw [lineStart, if_neg (by decide)]
  cases pieces with
  | nil => simp [dropSpaces]
  | cons piece pieces =>
    rw [dropSpaces]
    split
    · next hspaces =>
      cases pieces with
      | nil => simp
      | cons next pieces =>
        have hnext : isSpaces next = false := h.apart.rel hspaces
        exact head?_flatten_ne_space hnext (h.unmixed next (by simp)) pieces
    · next hword =>
      exact head?_flatten_ne_space (Bool.not_eq_true _ ▸ hword)
        (h.unmixed piece List.mem_cons_self) pieces

/-- A line that is not empty begins with the character that the pieces begin with. -/
theorem Round.head?_flatten (h : Round width pieces line rest) (hline : line.flatten ≠ []) :
    line.flatten.head? = pieces.flatten.head? := by
  obtain ⟨ending, hending⟩ := h.flatten_isPrefix
  obtain ⟨c, text, hc⟩ := List.exists_cons_of_ne_nil hline
  rw [← hending, hc]
  rfl

/-- Where lines have a width, no line is empty, and only the first may begin with a space. -/
theorem Run.bounds_of_pos (h : Run width isFirst pieces lines) (hwidth : 0 < width)
    (hpieces : Alternating pieces) :
    (∀ line ∈ lines, line ≠ []) ∧
      ∀ line ∈ (if isFirst then lines.tail else lines), line.head? ≠ some ' ' := by
  induction h with
  | stop => simp
  | skip hround _ ih =>
    exact ih (hround.alternating hwidth (hpieces.suffix (lineStart_suffix _ _)))
  | @write isFirst pieces line rest lines hround hline _ ih =>
    have hstart : Alternating (lineStart isFirst pieces) :=
      hpieces.suffix (lineStart_suffix _ _)
    obtain ⟨hne, hhead⟩ := ih (hround.alternating hwidth hstart)
    have hflatten : line.flatten ≠ [] := hround.flatten_ne_nil hstart.ne_nil hline
    refine ⟨List.forall_mem_cons.2 ⟨hflatten, hne⟩, ?_⟩
    cases isFirst with
    | true => simpa using hhead
    | false =>
      rw [if_neg (by decide)] at hhead ⊢
      refine List.forall_mem_cons.2 ⟨?_, hhead⟩
      rw [hround.head?_flatten hflatten]
      exact hpieces.head?_flatten_lineStart

/-! ## Lines of no width -/

/-- The pieces between two rounds where a line has no width. -/
inductive Narrow : (isFirst : Bool) → (pieces : List (List Char)) → Prop
  /-- Pieces that alternate. -/
  | whole {isFirst : Bool} {pieces : List (List Char)} (hpieces : Alternating pieces) :
      Narrow isFirst pieces
  /-- The piece in front has been used up.  Before the first line is written that can only
  have been spaces, so that a word comes next. -/
  | spent {isFirst : Bool} {pieces : List (List Char)} (hpieces : Alternating pieces)
      (hword : isFirst = true → ∀ next ∈ pieces.head?, isSpaces next = false) :
      Narrow isFirst ([] :: pieces)

/-- Taking the first character off.  If no line is written for it, it was a space. -/
theorem Alternating.narrow_tail {c : Char} {piece : List Char} {after : List (List Char)}
    (h : Alternating ((c :: piece) :: after)) (hspace : isFirst = true → c = ' ') :
    Narrow isFirst (piece :: after) := by
  have hafter : Alternating after := h.suffix (List.suffix_cons _ _)
  have hunmixed : Unmixed (c :: piece) := h.unmixed _ List.mem_cons_self
  have hsub : ∀ x ∈ piece, x ∈ c :: piece := fun x hx => List.mem_cons_of_mem _ hx
  by_cases hne : piece = []
  · subst hne
    refine .spent hafter fun hfirst next hnext => h.apart.rel_head? hnext ?_
    rw [hspace hfirst]
    rfl
  · refine .whole (hafter.cons hne (hunmixed.of_subset hsub) ?_)
    intro next hnext hspaces
    exact h.apart.rel_head? hnext (hunmixed.isSpaces_of_part hsub hspaces hne)

/-- A cut where there is room for one character takes one. -/
theorem cutLength_one_cons (c : Char) (piece : List Char) : cutLength 1 (c :: piece) = 1 := by
  rw [cutLength, List.take_succ_cons, List.take_zero, List.reverse_singleton]
  by_cases hc : c = '-' <;> simp [hc]

/-- A round where a line has no width takes one character, unless none is left. -/
theorem Round.of_width_zero (h : Round 0 pieces line rest) : ∃ placed, placed.flatten = [] ∧
    ((pieces = placed ∧ line = dropEndSpaces placed ∧ rest = []) ∨
      ∃ c piece after, pieces = placed ++ (c :: piece) :: after ∧
        line = dropEndSpaces (placed ++ [[c]]) ∧ rest = piece :: after) := by
  cases h with
  | @filled placed rest hroom hnext =>
    have hplaced : placed.flatten = [] := List.eq_nil_of_length_eq_zero (Nat.le_zero.1 hroom)
    refine ⟨placed, hplaced, .inl ?_⟩
    cases rest with
    | nil => simp
    | cons piece rest =>
      obtain ⟨hlt, hle⟩ := hnext piece rfl
      rw [hplaced, List.length_nil] at hlt
      omega
  | @broken placed rest piece hroom hlong =>
    have hplaced : placed.flatten = [] := List.eq_nil_of_length_eq_zero (Nat.le_zero.1 hroom)
    obtain ⟨c, piece, rfl⟩ := List.exists_cons_of_length_pos hlong
    refine ⟨placed, hplaced, .inr ⟨c, piece, rest, rfl, ?_, ?_⟩⟩ <;>
      simp [cutRoom, cutLength_one_cons]

theorem eq_nil_of_flatten_eq_nil {placed : List (List Char)} (hflatten : placed.flatten = [])
    (hne : ∀ piece ∈ placed, piece ≠ []) : placed = [] := by
  cases placed with
  | nil => rfl
  | cons piece placed =>
    exact absurd (List.append_eq_nil_iff.1 hflatten).1 (hne piece List.mem_cons_self)

/-- What a round writes where a line has no width, and what it leaves: one character that is
no space, or nothing. -/
def NarrowStep (isFirst : Bool) (line rest : List (List Char)) : Prop :=
  (line = [] ∧ Narrow isFirst rest) ∨ ∃ c, c ≠ ' ' ∧ line.flatten = [c] ∧ Narrow false rest

theorem Alternating.narrowStep (h : Alternating pieces) (hround : Round 0 pieces line rest) :
    NarrowStep isFirst line rest := by
  obtain ⟨placed, hflatten, ⟨rfl, rfl, rfl⟩ | ⟨c, piece, after, rfl, rfl, rfl⟩⟩ :=
    hround.of_width_zero
  · rw [eq_nil_of_flatten_eq_nil hflatten h.ne_nil]
    exact .inl ⟨rfl, .whole alternating_nil⟩
  · obtain rfl := eq_nil_of_flatten_eq_nil hflatten fun p hp =>
      h.ne_nil p (List.mem_append_left _ hp)
    rw [dropEndSpaces_concat]
    by_cases hc : c = ' '
    · exact .inl ⟨by simp [hc, isSpaces], h.narrow_tail fun _ => hc⟩
    · exact .inr ⟨c, hc, by simp [hc, isSpaces], h.narrow_tail fun hfalse => by cases hfalse⟩

theorem Narrow.step (h : Narrow isFirst pieces)
    (hround : Round 0 (lineStart isFirst pieces) line rest) : NarrowStep isFirst line rest := by
  cases h with
  | whole hpieces => exact (hpieces.suffix (lineStart_suffix _ _)).narrowStep hround
  | @spent pieces hpieces hword =>
    cases isFirst with
    | false =>
      rw [lineStart, if_neg (by decide), dropSpaces, if_pos isSpaces_nil] at hround
      exact hpieces.narrowStep hround
    | true =>
      rw [lineStart, if_pos rfl] at hround
      obtain ⟨placed, hflatten, ⟨rfl, rfl, rfl⟩ | ⟨c, piece, after, hplaced, rfl, rfl⟩⟩ :=
        hround.of_width_zero
      · obtain rfl : pieces = [] := eq_nil_of_flatten_eq_nil hflatten hpieces.ne_nil
        exact .inl ⟨rfl, .whole alternating_nil⟩
      · rcases placed with - | ⟨first, placed⟩
        · cases hplaced
        · rw [List.cons_append] at hplaced
          obtain ⟨rfl, rfl⟩ := List.cons.inj hplaced
          obtain rfl : placed = [] := eq_nil_of_flatten_eq_nil hflatten fun p hp =>
            hpieces.ne_nil p (List.mem_append_left _ hp)
          have hc : c ≠ ' ' := by
            rintro rfl
            have hspaces : isSpaces (' ' :: piece) = true :=
              (hpieces.unmixed _ List.mem_cons_self).resolve_right (by simp)
            rw [hword rfl _ rfl] at hspaces
            cases hspaces
          refine .inr ⟨c, hc, ?_, hpieces.narrow_tail fun hfalse => by cases hfalse⟩
          rw [dropEndSpaces_concat, if_neg (by simpa [isSpaces] using hc)]
          rfl

/-- Where lines have no width, every line is a single character and no space. -/
theorem Run.eq_singleton (h : Run 0 isFirst pieces lines) (hpieces : Narrow isFirst pieces) :
    ∀ line ∈ lines, ∃ c, c ≠ ' ' ∧ line = [c] := by
  induction h with
  | stop => simp
  | skip hround _ ih =>
    rcases hpieces.step hround with ⟨-, hrest⟩ | ⟨c, -, hc, -⟩
    · exact ih hrest
    · cases hc
  | write hround hline _ ih =>
    rcases hpieces.step hround with ⟨hnil, -⟩ | ⟨c, hc, hflatten, hrest⟩
    · exact absurd hnil hline
    · exact List.forall_mem_cons.2 ⟨⟨c, hc, hflatten⟩, ih hrest⟩

/-! ## All lines -/

/-- What stands on a line stands in the text. -/
theorem Spaced.mem {text : List Char} (h : Spaced text lines) {line : List Char}
    (hline : line ∈ lines) {c : Char} (hc : c ∈ line) : c ∈ text := by
  obtain ⟨first, gaps, hlength, -, -, rfl⟩ := h
  refine List.mem_append_right _ ?_
  induction lines generalizing gaps with
  | nil => cases hline
  | cons head lines ih =>
    cases gaps with
    | nil => cases hlength
    | cons gap gaps =>
      rw [List.zipWith_cons_cons, List.flatten_cons]
      rcases List.mem_cons.1 hline with rfl | hline
      · exact List.mem_append_left _ (List.mem_append_left _ hc)
      · exact List.mem_append_right _ (ih hline gaps (by simpa using hlength))

/-- The only blank on a line is the plain space. -/
theorem wrap_blank_eq_space {text line : List Char} (hline : line ∈ wrap width text) {c : Char}
    (hc : c ∈ line) (hblank : isBlank c = true) : c = ' ' := by
  obtain ⟨d, -, rfl⟩ := List.mem_map.1 ((spaced_wrap width text).mem hline hc)
  rw [blankToSpace] at hblank ⊢
  split at hblank
  · next hd => rw [if_pos hd]
  · next hd => exact absurd hblank hd

theorem Run.length_le (h : Run width isFirst pieces lines) :
    ∀ line ∈ lines, line.length ≤ max width 1 := by
  induction h with
  | stop => simp
  | skip _ _ ih => exact ih
  | write hround _ _ ih => exact List.forall_mem_cons.2 ⟨hround.length_le, ih⟩

/-- **Lines keep to their bounds.**  No line is empty or longer than the width, where at
least one character is allowed, the only blank on a line is the plain space, and only the
first line may begin with one. -/
theorem wrap_line_bounds (width : Nat) (text : List Char) :
    (∀ line ∈ wrap width text, line ≠ [] ∧ line.length ≤ max width 1 ∧
      ∀ c ∈ line, isBlank c = true → c = ' ') ∧
    ∀ line ∈ (wrap width text).tail, line.head? ≠ some ' ' := by
  have hrun := run_wrap width text
  have hchunks := alternating_chunks (text.map blankToSpace)
  obtain ⟨hne, hhead⟩ : (∀ line ∈ wrap width text, line ≠ []) ∧
      ∀ line ∈ (wrap width text).tail, line.head? ≠ some ' ' := by
    rcases Nat.eq_zero_or_pos width with rfl | hwidth
    · have hsingle := hrun.eq_singleton (.whole hchunks)
      constructor
      · intro line hline
        obtain ⟨c, -, rfl⟩ := hsingle line hline
        simp
      · intro line hline
        obtain ⟨c, hc, rfl⟩ := hsingle line (List.mem_of_mem_tail hline)
        simpa using hc
    · simpa using hrun.bounds_of_pos hwidth hchunks
  exact ⟨fun line hline => ⟨hne line hline, hrun.length_le line hline,
    fun c hc => wrap_blank_eq_space hline hc⟩, hhead⟩

end ExposureKit.Wrap
