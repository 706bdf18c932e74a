import ExposureKit.Proofs.Text.LineLayout
import ExposureKit.Proofs.Text.TrailingSpaces

/-!
# Where lines break

Lines and chunks both stand in the text, and so a line can end inside a chunk.  A `Span` is a
part of the text with its place, and `Breaks` says what the spans of lines and of chunks have to
do with each other.

* `cutLength_spec`: where a piece is cut.
* `Round.breaks`: one round.  What holds of the chunks that are left carries over to all,
  and a chunk that is cut has in it what holds of its rest.
* `Run.exists_breaks`: all rounds.
* `Layout.mem_spans`: there is no other way to find a line in the text, unless it is all spaces.

The main result is `wrap_breaks`.
-/

namespace ExposureKit.Wrap

variable {width : Nat} {isFirst : Bool} {pieces line rest lines : List (List Char)}

/-! ## Where a piece is cut -/

/-- The last hyphen among the first `room` characters of a piece, if other characters than
hyphens stand before it. -/
def GoodHyphen (room : Nat) (piece : List Char) (i : Nat) : Prop :=
  i < room ∧ piece[i]? = some '-' ∧ (∀ j, i < j → j < room → piece[j]? ≠ some '-') ∧
    ∃ j < i, piece[j]? ≠ some '-'

/-- Where no hyphen stands behind this one, it is the good one or there is none. -/
theorem goodHyphen_iff {room i : Nat} {piece front after : List Char}
    (htake : piece.take room = front ++ '-' :: after) (hafter : '-' ∉ after) :
    GoodHyphen room piece i ↔ i = front.length ∧ ∃ c ∈ front, c ≠ '-' := by
  have hget : ∀ j < room, piece[j]? = (front ++ '-' :: after)[j]? := fun j hj => by
    rw [← htake, List.getElem?_take_of_lt hj]
  have hlength : front.length < room := by
    have := congrArg List.length htake
    simp at this
    omega
  have hlast : piece[front.length]? = some '-' := by
    rw [hget _ hlength]
    simp
  have hfront : ∀ j < front.length, piece[j]? = front[j]? := fun j hj => by
    rw [hget j (by omega), List.getElem?_append_left hj]
  have hbehind : ∀ j, front.length < j → j < room → piece[j]? ≠ some '-' := by
    intro j hlt hj heq
    rw [hget j hj, List.getElem?_append_right hlt.le,
      show j - front.length = (j - front.length - 1) + 1 by omega,
      List.getElem?_cons_succ] at heq
    exact hafter (List.mem_of_getElem? heq)
  constructor
  · rintro ⟨hi, heq, hnone, j, hj, hne⟩
    obtain rfl : i = front.length := by
      by_contra hne
      rcases Nat.lt_or_gt_of_ne hne with hlt | hgt
      · exact hnone _ hlt hlength hlast
      · exact hbehind i hgt hi heq
    rw [hfront j hj, List.getElem?_eq_getElem hj] at hne
    exact ⟨rfl, front[j], List.getElem_mem hj, fun heq => hne (congrArg some heq)⟩
  · rintro ⟨rfl, c, hc, hne⟩
    obtain ⟨j, hj, rfl⟩ := List.mem_iff_getElem.1 hc
    refine ⟨hlength, hlast, hbehind, j, hj, ?_⟩
    rw [hfront j hj, List.getElem?_eq_getElem hj]
    exact fun heq => hne (Option.some.inj heq)

/-- What a cut finds when it looks for a hyphen from the back. -/
theorem take_eq_of_dropWhile {room : Nat} {piece found : List Char}
    (h : (piece.take room).reverse.dropWhile (· != '-') = found) :
    ∃ after, '-' ∉ after ∧ piece.take room = found.reverse ++ after ∧
      ∀ c ∈ found.head?, c = '-' := by
  refine ⟨((piece.take room).reverse.takeWhile (· != '-')).reverse, ?_, ?_, ?_⟩
  · intro hmem
    have hstop := List.mem_takeWhile_imp (List.mem_reverse.1 hmem)
    simp at hstop
  · rw [← h, ← List.reverse_append, List.takeWhile_append_dropWhile, List.reverse_reverse]
  · intro c hc
    have hstop := List.head?_dropWhile_not (· != '-') (piece.take room).reverse
    rw [h, hc] at hstop
    simpa using hstop

/-- A piece is cut after the good hyphen, or where the room ends. -/
theorem cutLength_spec (room : Nat) (piece : List Char) :
    (∃ i, GoodHyphen room piece i ∧ cutLength room piece = i + 1) ∨
      ((∀ i, ¬GoodHyphen room piece i) ∧ cutLength room piece = room) := by
  rw [cutLength]
  generalize hfound : (piece.take room).reverse.dropWhile (· != '-') = found
  obtain ⟨after, hafter, htake, hhyphen⟩ := take_eq_of_dropWhile hfound
  cases found with
  | nil =>
    refine .inr ⟨?_, rfl⟩
    rintro i ⟨hi, heq, -, -⟩
    rw [← List.getElem?_take_of_lt hi, htake] at heq
    exact hafter (List.mem_of_getElem? heq)
  | cons c before =>
    obtain rfl := hhyphen c rfl
    rw [List.reverse_cons, List.append_assoc, List.singleton_append] at htake
    have hgood := fun i => goodHyphen_iff (i := i) htake hafter
    simp only [hgood, List.length_reverse, List.mem_reverse]
    split
    · next hany =>
      obtain ⟨c, hc, hne⟩ := List.any_eq_true.1 hany
      exact .inl ⟨before.length, ⟨rfl, c, hc, by simpa using hne⟩, rfl⟩
    · next hany =>
      refine .inr ⟨?_, rfl⟩
      rintro i ⟨-, c, hc, hne⟩
      exact hany (List.any_eq_true.2 ⟨c, hc, by simpa using hne⟩)

/-! ## The rules for breaks -/

/-- Where the part of a chunk that may stand on a line begins. -/
def entry (chunk line : Span) : Nat := max chunk.start line.start

/-- The line ends inside a chunk that is too long for any line.  It takes what stands up to the
good hyphen of what it found of the chunk, or else as much as there was room for. -/
def CutIn (width : Nat) (chunk line : Span) : Prop :=
  let left := chunk.text.drop (entry chunk line - chunk.start)
  let room := width - (entry chunk line - line.start)
  let taken := line.stop - entry chunk line
  width < chunk.text.length ∧
    ((∃ i, GoodHyphen room left i ∧ taken = i + 1) ∨
      ((∀ i, ¬GoodHyphen room left i) ∧ taken = room ∧ line.text.length = width))

/-- How a line may end at a chunk. -/
structure LineEnd (width : Nat) (chunk line : Span) : Prop where
  /-- Inside it the line is cut. -/
  cut : chunk.start < line.stop → line.stop < chunk.stop → CutIn width chunk line
  /-- Just before one that is too long for any line, the line is full. -/
  full : line.stop = chunk.start → width < chunk.text.length → line.text.length = width

/-- How lines may break the chunks of a text, where runs of spaces do not count. -/
structure Breaks (width : Nat) (chunks lines : List Span) : Prop where
  /-- A chunk that fits on a line is not broken. -/
  whole : ∀ chunk ∈ chunks, isSpaces chunk.text = false → chunk.text.length ≤ width →
    ∃ line ∈ lines, line.start ≤ chunk.start ∧ chunk.stop ≤ line.stop
  /-- A line ends as it may. -/
  ends : ∀ chunk ∈ chunks, isSpaces chunk.text = false → ∀ line ∈ lines, LineEnd width chunk line

/-- The line reaches to the end of the chunk or beyond. -/
theorem LineEnd.of_stop_le {chunk line : Span} (hchunk : chunk.text ≠ [])
    (h : chunk.stop ≤ line.stop) : LineEnd width chunk line := by
  have hpos := List.length_pos_iff.2 hchunk
  refine ⟨fun _ hlt => absurd hlt (Nat.not_lt.2 h), fun heq => ?_⟩
  rw [heq, Span.stop] at h
  omega

/-- The line does not reach the chunk. -/
theorem LineEnd.of_stop_lt {chunk line : Span} (h : line.stop < chunk.start) :
    LineEnd width chunk line :=
  ⟨fun hlt => absurd hlt (Nat.lt_asymm h), fun heq => absurd heq (Nat.ne_of_lt h)⟩

/-- The line ends where a chunk begins that fits on a line. -/
theorem LineEnd.of_fits {chunk line : Span} (h : line.stop ≤ chunk.start)
    (hfits : chunk.text.length ≤ width) : LineEnd width chunk line :=
  ⟨fun hlt => absurd hlt (Nat.not_lt.2 h), fun _ hlong => absurd hlong (Nat.not_lt.2 hfits)⟩

/-- For a later line, a chunk that was cut is what was left of it. -/
theorem LineEnd.of_rest {start used : Nat} {chunk : List Char} {line : Span}
    (h : LineEnd width ⟨start + used, chunk.drop used⟩ line) (hlong : width < chunk.length)
    (hused : used ≤ chunk.length) (hstart : start + used ≤ line.start) (hline : line.text ≠ []) :
    LineEnd width ⟨start, chunk⟩ line := by
  have hpos := List.length_pos_iff.2 hline
  have hstop : (⟨start + used, chunk.drop used⟩ : Span).stop = (⟨start, chunk⟩ : Span).stop := by
    simp only [Span.stop, List.length_drop]
    omega
  have hentry : entry ⟨start + used, chunk.drop used⟩ line = entry ⟨start, chunk⟩ line := by
    simp only [entry]
    omega
  have hleft : (chunk.drop used).drop (entry ⟨start, chunk⟩ line - (start + used)) =
      chunk.drop (entry ⟨start, chunk⟩ line - start) := by
    rw [List.drop_drop]
    congr 1
    simp only [entry]
    omega
  constructor
  · intro _ hlt
    have hcut := h.cut (by simp only [Span.stop]; omega) (hstop ▸ hlt)
    rw [CutIn, hentry, hleft] at hcut
    exact ⟨hlong, hcut.2⟩
  · intro heq
    simp only [Span.stop] at heq
    omega

/-! ## One round -/

/-- Words stay on the line when spaces are taken off its end. -/
theorem stop_le_of_mem_placed {start : Nat} {placed : List (List Char)} {span : Span}
    (h : span ∈ spansFrom start placed) (hword : isSpaces span.text = false) :
    span.stop ≤ start + (dropEndSpaces placed).flatten.length := by
  rcases List.eq_nil_or_concat placed with rfl | ⟨front, piece, rfl⟩
  · cases h
  · rw [List.concat_eq_append] at h ⊢
    rw [dropEndSpaces_concat]
    split
    · next hspaces =>
      rw [spansFrom_append] at h
      rcases List.mem_append.1 h with h | h
      · exact (bounds_of_mem_spansFrom h).2.1
      · rw [List.mem_singleton.1 h, hspaces] at hword
        cases hword
    · exact (bounds_of_mem_spansFrom h).2.1

/-- A line that is cut in a word has on it all that was placed before and the front of the word. -/
theorem flatten_line_of_broken {placed : List (List Char)} {word : List Char}
    (hword : isSpaces word = false) (hunmixed : Unmixed word) :
    (dropEndSpaces (placed ++ [word.take (cutLength (cutRoom width placed) word)])).flatten =
      placed.flatten ++ word.take (cutLength (cutRoom width placed) word) := by
  rw [dropEndSpaces_concat]
  rcases Nat.eq_zero_or_pos (cutRoom width placed) with hzero | hpos
  · have hcut : cutLength (cutRoom width placed) word = 0 := by
      rw [hzero]
      exact Nat.le_zero.1 (cutLength_le 0 word)
    simp [hcut, isSpaces_nil]
  · rw [if_neg (by simp [isSpaces_cut hpos hword hunmixed])]
    simp

/-- A line may be cut as it is in a word that is too long for any line. -/
theorem lineEnd_of_broken {start : Nat} {placed : List (List Char)} {word : List Char}
    (hwidth : 0 < width) (hroom : placed.flatten.length ≤ width) (hlong : width < word.length)
    {line : List Char}
    (hline : line = placed.flatten ++ word.take (cutLength (cutRoom width placed) word)) :
    LineEnd width ⟨start + placed.flatten.length, word⟩ ⟨start, line⟩ := by
  have hcutRoom : cutRoom width placed = width - placed.flatten.length := by
    rw [cutRoom, if_neg (by omega)]
  rw [hcutRoom] at hline
  have hle := cutLength_le (width - placed.flatten.length) word
  have hlength : line.length =
      placed.flatten.length + cutLength (width - placed.flatten.length) word := by
    rw [hline, List.length_append, List.length_take]
    omega
  constructor
  · intro _ _
    have hentry : entry ⟨start + placed.flatten.length, word⟩ ⟨start, line⟩ =
        start + placed.flatten.length := Nat.max_eq_left (Nat.le_add_right _ _)
    refine ⟨hlong, ?_⟩
    simp only [hentry, Span.stop, Nat.sub_self, List.drop_zero, Nat.add_sub_cancel_left]
    rcases cutLength_spec (width - placed.flatten.length) word with ⟨i, hi, hcut⟩ | ⟨hnone, hcut⟩
    · exact .inl ⟨i, hi, by omega⟩
    · exact .inr ⟨hnone, by omega, by omega⟩
  · intro heq _
    show line.length = width
    simp only [Span.stop] at heq
    by_contra hne
    have hleft : 0 < width - placed.flatten.length := by omega
    have := cutLength_pos hleft word
    omega

theorem Breaks.of_append {done others later : List Span} {line : Span}
    (hdone : ∀ chunk ∈ done, isSpaces chunk.text = false →
      chunk.text ≠ [] ∧ line.start ≤ chunk.start ∧ chunk.stop ≤ line.stop)
    (hlater : ∀ next ∈ later, line.stop ≤ next.start) (hothers : Breaks width others later)
    (hends : ∀ chunk ∈ others, isSpaces chunk.text = false → LineEnd width chunk line) :
    Breaks width (done ++ others) (line :: later) := by
  constructor
  · intro chunk hchunk hword hfits
    rcases List.mem_append.1 hchunk with hchunk | hchunk
    · exact ⟨line, List.mem_cons_self, (hdone chunk hchunk hword).2⟩
    · obtain ⟨next, hnext, hwhole⟩ := hothers.whole chunk hchunk hword hfits
      exact ⟨next, List.mem_cons_of_mem _ hnext, hwhole⟩
  · intro chunk hchunk hword next hnext
    rcases List.mem_append.1 hchunk with hchunk | hchunk
    · obtain ⟨hne, -, hstop⟩ := hdone chunk hchunk hword
      refine .of_stop_le hne (hstop.trans ?_)
      rcases List.mem_cons.1 hnext with rfl | hnext
      · exact Nat.le_refl _
      · exact (hlater next hnext).trans (Nat.le_add_right _ _)
    · rcases List.mem_cons.1 hnext with rfl | hnext
      · exact hends chunk hchunk hword
      · exact hothers.ends chunk hchunk hword next hnext

theorem Breaks.of_rest {start used : Nat} {chunk : List Char} {others later : List Span}
    (h : Breaks width (⟨start + used, chunk.drop used⟩ :: others) later)
    (hlong : width < chunk.length) (hused : used < chunk.length) (hunmixed : Unmixed chunk)
    (hlater : isSpaces chunk = false →
      ∀ next ∈ later, start + used ≤ next.start ∧ next.text ≠ []) :
    Breaks width (⟨start, chunk⟩ :: others) later := by
  constructor
  · intro span hspan hword hfits
    rcases List.mem_cons.1 hspan with rfl | hspan
    · exact absurd hlong (Nat.not_lt.2 hfits)
    · exact h.whole span (List.mem_cons_of_mem _ hspan) hword hfits
  · intro span hspan hword next hnext
    rcases List.mem_cons.1 hspan with rfl | hspan
    · obtain ⟨hstart, hne⟩ := hlater hword next hnext
      have hleft : isSpaces (chunk.drop used) = false := by
        by_contra hspaces
        rw [Bool.not_eq_false] at hspaces
        have := hunmixed.isSpaces_of_part (fun c hc => List.mem_of_mem_drop hc) hspaces
          (by rw [Ne, List.drop_eq_nil_iff]; omega)
        rw [hword] at this
        cases this
      exact (h.ends _ List.mem_cons_self hleft next hnext).of_rest hlong hused.le hstart hne
    · exact h.ends span (List.mem_cons_of_mem _ hspan) hword next hnext

/-- A line that is filled breaks no chunk. -/
theorem Breaks.of_filled {placed : List (List Char)} {start : Nat} {later : List Span}
    (hpieces : Alternating (placed ++ rest)) (hnext : ∀ piece ∈ rest.head?, piece.length ≤ width)
    (hlater : ∀ next ∈ later, start + (dropEndSpaces placed).flatten.length ≤ next.start)
    (hrest : Breaks width (spansFrom (start + placed.flatten.length) rest) later) :
    Breaks width (spansFrom start (placed ++ rest))
      (⟨start, (dropEndSpaces placed).flatten⟩ :: later) := by
  rw [spansFrom_append]
  refine .of_append ?_ hlater hrest ?_
  · intro chunk hchunk hword
    obtain ⟨hstart, -, hmem⟩ := bounds_of_mem_spansFrom hchunk
    exact ⟨hpieces.ne_nil _ (List.mem_append_left _ hmem), hstart,
      stop_le_of_mem_placed hchunk hword⟩
  · intro chunk hchunk hword
    have hline := (flatten_dropEndSpaces_isPrefix placed).length_le
    cases rest with
    | nil => cases hchunk
    | cons piece rest =>
      rcases List.mem_cons.1 hchunk with rfl | hchunk
      · exact .of_fits (by simp only [Span.stop]; omega) (hnext piece rfl)
      · have hpos := List.length_pos_iff.2 (hpieces.ne_nil piece (by simp))
        have hstart := (bounds_of_mem_spansFrom hchunk).1
        exact .of_stop_lt (by simp only [Span.stop]; omega)

/-- A line with a cut piece has on it all that was placed before, and no more of the piece than
was cut off. -/
theorem length_line_of_broken (placed : List (List Char)) (piece : List Char) (used : Nat) :
    placed.flatten.length ≤ (dropEndSpaces (placed ++ [piece.take used])).flatten.length ∧
      (dropEndSpaces (placed ++ [piece.take used])).flatten.length ≤
        placed.flatten.length + used := by
  rw [dropEndSpaces_concat]
  split
  · exact ⟨Nat.le_refl _, Nat.le_add_right _ _⟩
  · rw [List.flatten_append, List.flatten_singleton, List.length_append, List.length_take]
    omega

/-- A line that is cut in a word may be cut there, and what holds of the rest of the word holds
of all of it. -/
theorem Breaks.of_broken {placed after : List (List Char)} {piece : List Char} {start used : Nat}
    {later : List Span} (hwidth : 0 < width) (hpieces : Alternating (placed ++ piece :: after))
    (hroom : placed.flatten.length ≤ width) (hlong : width < piece.length)
    (hused : cutLength (cutRoom width placed) piece = used)
    (hlater : ∀ next ∈ later, start + (dropEndSpaces (placed ++ [piece.take used])).flatten.length ≤
      next.start ∧ next.text ≠ [])
    (hrest : Breaks width (spansFrom (start + placed.flatten.length + used)
      (piece.drop used :: after)) later) :
    Breaks width (spansFrom start (placed ++ piece :: after))
      (⟨start, (dropEndSpaces (placed ++ [piece.take used])).flatten⟩ :: later) := by
  have hunmixed : Unmixed piece := hpieces.unmixed piece (by simp)
  have hcut : used < piece.length := by
    rw [← hused]
    refine Nat.lt_of_le_of_lt (cutLength_le _ _) ?_
    rw [cutRoom, if_neg (by omega)]
    omega
  obtain ⟨hplaced, hlength⟩ := length_line_of_broken placed piece used
  have hword : isSpaces piece = false →
      (dropEndSpaces (placed ++ [piece.take used])).flatten =
        placed.flatten ++ piece.take used := by
    intro hword
    rw [← hused]
    exact flatten_line_of_broken hword hunmixed
  generalize dropEndSpaces (placed ++ [piece.take used]) = line at *
  rw [spansFrom, List.length_drop,
    show start + placed.flatten.length + used + (piece.length - used) =
      start + placed.flatten.length + piece.length by omega] at hrest
  rw [spansFrom_append, spansFrom]
  refine .of_append ?_ (fun next hmem => (hlater next hmem).1)
    (hrest.of_rest hlong hcut hunmixed ?_) ?_
  · intro chunk hchunk _
    obtain ⟨hstart, hle, hmem⟩ := bounds_of_mem_spansFrom hchunk
    exact ⟨hpieces.ne_nil _ (List.mem_append_left _ hmem), hstart,
      hle.trans (Nat.add_le_add_left hplaced start)⟩
  · intro hspaces next hnext
    obtain ⟨hnext, hne⟩ := hlater next hnext
    rw [hword hspaces, List.length_append, List.length_take] at hnext
    exact ⟨by omega, hne⟩
  · intro chunk hchunk hspaces
    rcases List.mem_cons.1 hchunk with rfl | hchunk
    · refine lineEnd_of_broken hwidth hroom hlong ?_
      rw [hused]
      exact hword hspaces
    · have hstart := (bounds_of_mem_spansFrom hchunk).1
      exact .of_stop_lt (by simp only [Span.stop]; omega)

/-- What holds of the chunks that a round leaves holds of all that it was given. -/
theorem Round.breaks (h : Round width pieces line rest) (hwidth : 0 < width)
    (hpieces : Alternating pieces) {start stop : Nat} {later : List Span}
    (hstop : start + pieces.flatten.length = stop + rest.flatten.length)
    (hlater : ∀ next ∈ later, start + line.flatten.length ≤ next.start ∧ next.text ≠ [])
    (hrest : Breaks width (spansFrom stop rest) later) :
    Breaks width (spansFrom start pieces) (⟨start, line.flatten⟩ :: later) := by
  cases h with
  | @filled placed rest hroom hnext =>
    obtain rfl : stop = start + placed.flatten.length := by
      rw [List.flatten_append, List.length_append] at hstop
      omega
    exact .of_filled hpieces (fun piece hpiece => (hnext piece hpiece).2)
      (fun next hmem => (hlater next hmem).1) hrest
  | @broken placed after piece hroom hlong =>
    generalize hused : cutLength (cutRoom width placed) piece = used at *
    obtain rfl : stop = start + placed.flatten.length + used := by
      have hle := cutLength_le (cutRoom width placed) piece
      rw [cutRoom, if_neg (by omega)] at hle hused
      simp only [List.flatten_append, List.flatten_cons, List.length_append,
        List.length_drop] at hstop
      omega
    exact .of_broken hwidth hpieces hroom hlong hused hlater hrest

/-! ## All rounds -/

/-- Behind a line, a round loses a gap. -/
theorem Round.exists_gap (h : Round width pieces line rest) :
    ∃ gap, Gap gap ∧ pieces.flatten = line.flatten ++ (gap ++ rest.flatten) := by
  cases h with
  | @filled placed rest =>
    obtain ⟨gap, hgap, hplaced⟩ := flatten_dropEndSpaces placed
    refine ⟨gap, hgap, ?_⟩
    rw [List.flatten_append, ← List.append_assoc, ← hplaced]
  | @broken placed after piece =>
    obtain ⟨gap, hgap, hplaced⟩ := flatten_dropEndSpaces
      (placed ++ [piece.take (cutLength (cutRoom width placed) piece)])
    refine ⟨gap, hgap, ?_⟩
    rw [← List.append_assoc, ← hplaced, List.flatten_append, List.flatten_append,
      List.flatten_singleton, List.flatten_cons, List.flatten_cons, List.append_assoc,
      ← List.append_assoc (List.take _ _), List.take_append_drop]

/-- A line that is empty plays no part. -/
theorem Breaks.of_empty_line {chunks later : List Span} {start : Nat}
    (h : Breaks width chunks (⟨start, []⟩ :: later)) (hchunks : ∀ chunk ∈ chunks, chunk.text ≠ []) :
    Breaks width chunks later := by
  constructor
  · intro chunk hchunk hword hfits
    obtain ⟨line, hline, hstart, hstop⟩ := h.whole chunk hchunk hword hfits
    rcases List.mem_cons.1 hline with rfl | hline
    · have hpos := List.length_pos_iff.2 (hchunks chunk hchunk)
      simp only [Span.stop, List.length_nil] at hstart hstop
      omega
    · exact ⟨line, hline, hstart, hstop⟩
  · intro chunk hchunk hword line hline
    exact h.ends chunk hchunk hword line (List.mem_cons_of_mem _ hline)

/-- Runs of spaces do not count. -/
theorem Breaks.of_spaces_append {chunks later : List Span} {start : Nat}
    {front : List (List Char)} (hfront : ∀ piece ∈ front, isSpaces piece = true)
    (h : Breaks width chunks later) : Breaks width (spansFrom start front ++ chunks) later := by
  have hmem : ∀ chunk ∈ spansFrom start front ++ chunks, isSpaces chunk.text = false →
      chunk ∈ chunks := by
    intro chunk hchunk hword
    refine (List.mem_append.1 hchunk).resolve_left fun hspaces => ?_
    rw [hfront _ (bounds_of_mem_spansFrom hspaces).2.2] at hword
    cases hword
  exact ⟨fun chunk hchunk hword => h.whole chunk (hmem chunk hchunk hword) hword,
    fun chunk hchunk hword => h.ends chunk (hmem chunk hchunk hword) hword⟩

/-- One round with the gaps around its line. -/
theorem Round.exists_breaks (h : Round width (lineStart isFirst pieces) line rest)
    (hwidth : 0 < width) (hpieces : Alternating pieces) :
    ∃ front after, Gap front ∧ Gap after ∧
      pieces.flatten = front ++ (line.flatten ++ (after ++ rest.flatten)) ∧
      ∀ start later, (∀ next ∈ later,
          start + front.length + line.flatten.length ≤ next.start ∧ next.text ≠ []) →
        Breaks width
          (spansFrom (start + front.length + line.flatten.length + after.length) rest) later →
        Breaks width (spansFrom start pieces) (⟨start + front.length, line.flatten⟩ :: later) := by
  obtain ⟨front, hfront, hspaces⟩ := exists_lineStart_eq isFirst pieces
  generalize lineStart isFirst pieces = kept at h hfront
  subst hfront
  have hkept : Alternating kept := hpieces.suffix (List.suffix_append _ _)
  obtain ⟨after, hafter, hflatten⟩ := h.exists_gap
  refine ⟨front.flatten, after, gap_of_spaces hspaces, hafter, ?_, ?_⟩
  · rw [List.flatten_append, hflatten]
  · intro start later hlater hbreaks
    rw [spansFrom_append]
    refine .of_spaces_append hspaces (h.breaks hwidth hkept ?_ hlater hbreaks)
    rw [hflatten]
    simp only [List.length_append]
    omega

/-- The lines of a run have a layout that breaks the pieces as it may. -/
theorem Run.exists_breaks (h : Run width isFirst pieces lines) (hwidth : 0 < width)
    (hpieces : Alternating pieces) (start : Nat) {gap : List Char} (hgap : Gap gap) :
    ∃ layout : Layout (gap ++ pieces.flatten) lines,
      (∀ line ∈ lineSpansFrom start layout.gapped, start + gap.length ≤ line.start) ∧
      Breaks width (spansFrom (start + gap.length) pieces)
        (lineSpansFrom start layout.gapped) := by
  induction h generalizing start gap with
  | stop =>
    rw [List.flatten_nil, List.append_nil]
    exact ⟨.nil hgap, by simp [Layout.nil, lineSpansFrom], by simp [spansFrom], by simp [spansFrom]⟩
  | @skip isFirst pieces rest lines hround hrun ih =>
    obtain ⟨front, after, hfront, hafter, hflatten, hbreaks⟩ := hround.exists_breaks hwidth hpieces
    have hrest : Alternating rest :=
      hround.alternating hwidth (hpieces.suffix (lineStart_suffix isFirst pieces))
    obtain ⟨hne, -⟩ := hrun.bounds_of_pos hwidth hrest
    -- no line is written, and the gaps around it are one with the gap before
    obtain ⟨layout, hstart, hlater⟩ :=
      ih hrest start (gap_append (gap_append hgap hfront) hafter)
    rw [List.length_append, List.length_append, ← Nat.add_assoc, ← Nat.add_assoc] at hstart hlater
    rw [hflatten, List.flatten_nil, List.nil_append, ← List.append_assoc, ← List.append_assoc]
    refine ⟨layout, fun line hline => by have := hstart line hline; omega, ?_⟩
    have hempty := hbreaks (start + gap.length) (lineSpansFrom start layout.gapped) ?_ hlater
    · exact hempty.of_empty_line fun chunk hchunk =>
        hpieces.ne_nil _ (bounds_of_mem_spansFrom hchunk).2.2
    · intro next hnext
      exact ⟨(Nat.le_add_right _ _).trans (hstart next hnext), hne _ (layout.text_mem hnext)⟩
  | @write isFirst pieces line rest lines hround hline hrun ih =>
    obtain ⟨front, after, hfront, hafter, hflatten, hbreaks⟩ := hround.exists_breaks hwidth hpieces
    have hrest : Alternating rest :=
      hround.alternating hwidth (hpieces.suffix (lineStart_suffix isFirst pieces))
    obtain ⟨hne, -⟩ := hrun.bounds_of_pos hwidth hrest
    obtain ⟨layout, hstart, hlater⟩ :=
      ih hrest (start + (gap ++ front).length + line.flatten.length) hafter
    rw [hflatten, ← List.append_assoc]
    refine ⟨layout.cons (gap_append hgap hfront) line.flatten, ?_, ?_⟩
    · intro span hspan
      rw [Layout.cons, lineSpansFrom] at hspan
      rcases List.mem_cons.1 hspan with rfl | hspan
      · simp only [List.length_append]
        omega
      · have := hstart span hspan
        rw [List.length_append] at this
        omega
    · rw [Layout.cons, lineSpansFrom]
      rw [List.length_append, ← Nat.add_assoc] at hstart hlater ⊢
      refine hbreaks (start + gap.length) _ (fun next hnext => ?_) hlater
      exact ⟨(Nat.le_add_right _ _).trans (hstart next hnext), hne _ (layout.text_mem hnext)⟩

/-! ## All layouts -/

/-- Lines break the chunks as they may in one layout if they do so in another.  Only a line that
is all spaces can stand in different places, and such a line is full. -/
theorem Breaks.of_layout {text : List Char} {chunks : List Span} {layout : Layout text lines}
    (h : Breaks width chunks layout.spans)
    (hchunks : ∀ chunk ∈ chunks, chunk.StandsIn text ∧ chunk.text ≠ [] ∧ Unmixed chunk.text)
    (hlines : ∀ line ∈ lines, line ≠ [] ∧ (line.getLast? = some ' ' → line.length = width))
    (other : Layout text lines) : Breaks width chunks other.spans := by
  have hnospace : ∀ chunk ∈ chunks, isSpaces chunk.text = false → ' ' ∉ chunk.text := by
    intro chunk hchunk hword
    exact (hchunks chunk hchunk).2.2.resolve_left (by simp [hword])
  constructor
  · intro chunk hchunk hword hfits
    obtain ⟨line, hline, hstart, hstop⟩ := h.whole chunk hchunk hword hfits
    obtain ⟨hstands, hne, -⟩ := hchunks chunk hchunk
    have hpos := List.length_pos_iff.2 hne
    have hinside : chunk.start < chunk.stop := Nat.lt_add_of_pos_right hpos
    obtain ⟨c, hc, hmem⟩ := exists_mem_of_overlap chunk.start hstands
      (layout.standsIn hline) (Nat.le_refl _) hinside hstart (hinside.trans_le hstop)
    refine ⟨line, other.mem_spans layout hline ⟨c, hmem, ?_⟩, hstart, hstop⟩
    rintro rfl
    exact hnospace chunk hchunk hword hc
  · intro chunk hchunk hword line hline
    obtain ⟨hne, hfull⟩ := hlines line.text (other.text_mem hline)
    by_cases hspaces : ∃ c ∈ line.text, c ≠ ' '
    · exact h.ends chunk hchunk hword line (layout.mem_spans other hline hspaces)
    push Not at hspaces
    have hpos := List.length_pos_iff.2 hne
    constructor
    · intro hlt hlt'
      -- the last character of the line would stand in the chunk
      obtain ⟨c, hc, hmem⟩ := exists_mem_of_overlap (line.stop - 1)
        (hchunks chunk hchunk).1 (other.standsIn hline) (by omega) (by omega)
        (by rw [Span.stop]; omega) (by rw [Span.stop]; omega)
      rw [hspaces c hmem] at hc
      exact absurd hc (hnospace chunk hchunk hword)
    · intro _ _
      obtain ⟨c, hc⟩ := Option.ne_none_iff_exists'.1 (mt List.getLast?_eq_none_iff.1 hne)
      refine hfull ?_
      rw [hc, hspaces c (List.mem_of_getLast? hc)]

/-- **Where lines break.**  The lines of a text can be found in it, and however they are found:
a chunk that fits on a line stands on one, apart from spaces; a line ends inside a chunk only if
that is too long for any line, and takes its front up to the last good hyphen, or as much as
there is room for; and a line that ends just before such a chunk is full. -/
theorem wrap_breaks (hwidth : 0 < width) (text : List Char) :
    Nonempty (Layout (text.map blankToSpace) (wrap width text)) ∧
      ∀ layout : Layout (text.map blankToSpace) (wrap width text),
        Breaks width (spansFrom 0 (chunks (text.map blankToSpace))) layout.spans := by
  have hrun := run_wrap width text
  have hchunks := alternating_chunks (text.map blankToSpace)
  obtain ⟨hne, -⟩ := hrun.bounds_of_pos hwidth hchunks
  have hfound := hrun.exists_breaks hwidth hchunks 0 gap_nil
  rw [flatten_chunks, List.nil_append, List.length_nil] at hfound
  obtain ⟨layout, -, hbreaks⟩ := hfound
  refine ⟨⟨layout⟩, hbreaks.of_layout ?_ ?_⟩
  · intro chunk hchunk
    have hmem := (bounds_of_mem_spansFrom hchunk).2.2
    have hstands := standsIn_of_mem_spansFrom [] hchunk
    rw [flatten_chunks, List.nil_append] at hstands
    exact ⟨hstands, hchunks.ne_nil _ hmem, hchunks.unmixed _ hmem⟩
  · intro line hline
    refine ⟨hne line hline, fun hlast => ?_⟩
    obtain ⟨before, after, hlines⟩ := List.append_of_mem hline
    exact (hrun.space_end hwidth hchunks (fun p hp => List.mem_of_mem_tail hp) hlines hlast).1

theorem wrap_breaks_ab_cdefghij :
    0 < 6 ∧ wrap 6 "ab cdefghij".toList = ["ab cde".toList, "fghij".toList] ∧
      Nonempty (Layout ("ab cdefghij".toList.map blankToSpace) (wrap 6 "ab cdefghij".toList)) ∧
      ∀ layout : Layout ("ab cdefghij".toList.map blankToSpace) (wrap 6 "ab cdefghij".toList),
        Breaks 6 (spansFrom 0 (chunks ("ab cdefghij".toList.map blankToSpace))) layout.spans :=
  ⟨by decide, by cbv, wrap_breaks (by decide) "ab cdefghij".toList⟩

end ExposureKit.Wrap
