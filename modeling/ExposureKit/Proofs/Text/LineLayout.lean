import ExposureKit.Proofs.Text.ChunkShape
import ExposureKit.Proofs.Text.WrapConservation

/-!
# Lines in their places

Lines stand in the text that they were filled with, in order and with nothing but spaces between
them.  A `Span` is a part of a text with its place, and a `Layout` is a way to find the lines.

The main result is `Layout.mem_spans`: a line that is not all spaces can be found in one place
only.
-/

namespace ExposureKit.Wrap

variable {lines : List (List Char)}

/-! ## Parts of a text in their places -/

/-- A part of a text and the place where it begins, counted in characters. -/
structure Span where
  /-- The place of its first character. -/
  start : Nat
  /-- Its characters. -/
  text : List Char

/-- The place behind its last character. -/
def Span.stop (span : Span) : Nat := span.start + span.text.length

/-- Parts that stand side by side. -/
def spansFrom (start : Nat) : List (List Char) → List Span
  | [] => []
  | part :: parts => ⟨start, part⟩ :: spansFrom (start + part.length) parts

/-- Lines, each behind the gap that stands before it. -/
def lineSpansFrom (start : Nat) : List (List Char × List Char) → List Span
  | [] => []
  | (gap, line) :: layout =>
    ⟨start + gap.length, line⟩ :: lineSpansFrom (start + gap.length + line.length) layout

/-- A way to find the lines in a text, with nothing but spaces between them. -/
structure Layout (text : List Char) (lines : List (List Char)) where
  /-- The lines, each behind the gap that stands before it. -/
  gapped : List (List Char × List Char)
  /-- What stands behind the last line. -/
  last : List Char
  /-- The lines in order. -/
  map_snd : gapped.map Prod.snd = lines
  /-- The gaps before the lines. -/
  gap : ∀ part ∈ gapped, Gap part.1
  /-- The gap behind them. -/
  gap_last : Gap last
  /-- Nothing else stands in the text. -/
  text_eq : gapped.flatMap (fun part => part.1 ++ part.2) ++ last = text

/-- The lines in their places. -/
def Layout.spans {text : List Char} (layout : Layout text lines) : List Span :=
  lineSpansFrom 0 layout.gapped

theorem spansFrom_append (start : Nat) (parts after : List (List Char)) :
    spansFrom start (parts ++ after) =
      spansFrom start parts ++ spansFrom (start + parts.flatten.length) after := by
  induction parts generalizing start with
  | nil => rfl
  | cons part parts ih =>
    rw [List.cons_append, spansFrom, spansFrom, ih, List.flatten_cons, List.length_append,
      Nat.add_assoc, List.cons_append]

theorem bounds_of_mem_spansFrom {start : Nat} {parts : List (List Char)} {span : Span}
    (h : span ∈ spansFrom start parts) :
    start ≤ span.start ∧ span.stop ≤ start + parts.flatten.length ∧ span.text ∈ parts := by
  induction parts generalizing start with
  | nil => cases h
  | cons part parts ih =>
    rw [List.flatten_cons, List.length_append]
    rcases List.mem_cons.1 h with rfl | h
    · simp only [Span.stop]
      exact ⟨Nat.le_refl _, by omega, List.mem_cons_self⟩
    · obtain ⟨hstart, hstop, hmem⟩ := ih h
      exact ⟨by omega, by omega, List.mem_cons_of_mem _ hmem⟩

theorem bounds_of_mem_lineSpansFrom {start : Nat} {gapped : List (List Char × List Char)}
    {span : Span} (h : span ∈ lineSpansFrom start gapped) :
    start ≤ span.start ∧ span.text ∈ gapped.map Prod.snd := by
  induction gapped generalizing start with
  | nil => cases h
  | cons part gapped ih =>
    obtain ⟨gap, line⟩ := part
    rcases List.mem_cons.1 h with rfl | h
    · exact ⟨Nat.le_add_right _ _, List.mem_cons_self⟩
    · obtain ⟨hstart, hmem⟩ := ih h
      exact ⟨by omega, List.mem_cons_of_mem _ hmem⟩

theorem Layout.text_mem {text : List Char} (layout : Layout text lines) {start : Nat} {span : Span}
    (h : span ∈ lineSpansFrom start layout.gapped) : span.text ∈ lines := by
  have hmem := (bounds_of_mem_lineSpansFrom h).2
  rwa [layout.map_snd] at hmem

/-! ## What stands in a place -/

/-- The span is a part of this text. -/
def Span.StandsIn (span : Span) (text : List Char) : Prop := span.text <+: text.drop span.start

theorem standsIn_of_mem_spansFrom (front : List Char) {parts : List (List Char)} {span : Span}
    (h : span ∈ spansFrom front.length parts) : span.StandsIn (front ++ parts.flatten) := by
  induction parts generalizing front with
  | nil => cases h
  | cons part parts ih =>
    rcases List.mem_cons.1 h with rfl | h
    · rw [Span.StandsIn, List.drop_left, List.flatten_cons]
      exact List.prefix_append _ _
    · rw [← List.length_append] at h
      simpa using ih (front ++ part) h

theorem standsIn_of_mem_lineSpansFrom (last : List Char) {front : List Char}
    {gapped : List (List Char × List Char)} {span : Span}
    (h : span ∈ lineSpansFrom front.length gapped) :
    span.StandsIn (front ++ (gapped.flatMap (fun part => part.1 ++ part.2) ++ last)) := by
  induction gapped generalizing front with
  | nil => cases h
  | cons part gapped ih =>
    obtain ⟨gap, line⟩ := part
    rcases List.mem_cons.1 h with rfl | h
    · rw [← List.length_append, Span.StandsIn, List.flatMap_cons, ← List.append_assoc,
        ← List.append_assoc, ← List.append_assoc, List.append_assoc, List.append_assoc,
        List.drop_left]
      exact List.prefix_append _ _
    · rw [← List.length_append, ← List.length_append] at h
      simpa using ih h

theorem Span.StandsIn.exists_mem {span : Span} {text : List Char} (h : span.StandsIn text)
    {place : Nat} (hstart : span.start ≤ place) (hstop : place < span.stop) :
    ∃ c ∈ span.text, text[place]? = some c := by
  obtain ⟨after, hafter⟩ := h
  obtain ⟨i, rfl⟩ := Nat.exists_eq_add_of_le hstart
  have hi : i < span.text.length := by
    rw [Span.stop] at hstop
    omega
  refine ⟨span.text[i], List.getElem_mem hi, ?_⟩
  rw [← List.getElem?_drop, ← hafter, List.getElem?_append_left hi, List.getElem?_eq_getElem hi]

/-- Where two parts of a text overlap, they have a character in common. -/
theorem exists_mem_of_overlap (place : Nat) {span other : Span} {text : List Char}
    (hspan : span.StandsIn text) (hother : other.StandsIn text)
    (hstart : span.start ≤ place) (hstop : place < span.stop)
    (hstart' : other.start ≤ place) (hstop' : place < other.stop) :
    ∃ c, c ∈ span.text ∧ c ∈ other.text := by
  obtain ⟨c, hc, hplace⟩ := hspan.exists_mem hstart hstop
  obtain ⟨d, hd, hplace'⟩ := hother.exists_mem hstart' hstop'
  obtain rfl : c = d := Option.some.inj (hplace.symm.trans hplace')
  exact ⟨c, hc, hd⟩

theorem Layout.standsIn {text : List Char} (layout : Layout text lines) {span : Span}
    (h : span ∈ layout.spans) : span.StandsIn text := by
  have h' : span ∈ lineSpansFrom ([] : List Char).length layout.gapped := h
  exact layout.text_eq ▸ standsIn_of_mem_lineSpansFrom layout.last h'

/-- Before the first line nothing has been laid out. -/
def Layout.nil {gap : List Char} (hgap : Gap gap) : Layout gap [] :=
  ⟨[], gap, rfl, by simp, hgap, rfl⟩

/-- One more line in front. -/
def Layout.cons {text gap : List Char} (layout : Layout text lines) (hgap : Gap gap)
    (line : List Char) : Layout (gap ++ (line ++ text)) (line :: lines) where
  gapped := (gap, line) :: layout.gapped
  last := layout.last
  map_snd := by rw [List.map_cons, layout.map_snd]
  gap := List.forall_mem_cons.2 ⟨hgap, layout.gap⟩
  gap_last := layout.gap_last
  text_eq := by
    rw [List.flatMap_cons, List.append_assoc, List.append_assoc, layout.text_eq]

/-! ## One place for a line -/

/-- A word does not begin later if spaces are put before it. -/
theorem eq_nil_of_append_eq {gap line rest rest' : List Char} (hgap : Gap gap)
    (hword : ∃ c ∈ line, c ≠ ' ') (h : line ++ rest = gap ++ (line ++ rest')) : gap = [] := by
  have hspaces : ∀ c ∈ gap, (c == ' ') = true := fun c hc => by simpa using hgap c hc
  have heq := congrArg (List.takeWhile (· == ' ')) h
  rw [List.takeWhile_append_of_pos hspaces, takeWhile_append_of_word hword,
    takeWhile_append_of_word hword] at heq
  exact List.self_eq_append_left.1 heq

/-- Behind the same words, a line that is not all spaces has only one place. -/
theorem length_eq_of_append_eq {front front' line rest rest' : List Char}
    (hkept : front.filter (· != ' ') = front'.filter (· != ' '))
    (hword : ∃ c ∈ line, c ≠ ' ') (h : front ++ (line ++ rest) = front' ++ (line ++ rest')) :
    front.length = front'.length := by
  have hgap : ∀ {a gap : List Char}, a.filter (· != ' ') = (a ++ gap).filter (· != ' ') →
      Gap gap := by
    intro a gap heq c hc
    rw [List.filter_append, List.self_eq_append_right, List.filter_eq_nil_iff] at heq
    simpa using heq c hc
  rcases List.append_eq_append_iff.1 h with ⟨gap, rfl, heq⟩ | ⟨gap, rfl, heq⟩
  · rw [eq_nil_of_append_eq (hgap hkept) hword heq, List.append_nil]
  · rw [eq_nil_of_append_eq (hgap hkept.symm) hword heq, List.append_nil]

theorem mem_lineSpansFrom_of_eq {gapped other : List (List Char × List Char)}
    {front front' last last' : List Char} {span : Span}
    (hlines : gapped.map Prod.snd = other.map Prod.snd) (hgap : ∀ part ∈ gapped, Gap part.1)
    (hgap' : ∀ part ∈ other, Gap part.1)
    (hkept : front.filter (· != ' ') = front'.filter (· != ' '))
    (htext : front ++ (gapped.flatMap (fun part => part.1 ++ part.2) ++ last) =
      front' ++ (other.flatMap (fun part => part.1 ++ part.2) ++ last'))
    (hspan : span ∈ lineSpansFrom front'.length other) (hword : ∃ c ∈ span.text, c ≠ ' ') :
    span ∈ lineSpansFrom front.length gapped := by
  induction other generalizing gapped front front' with
  | nil => cases hspan
  | cons part' other ih =>
    cases gapped with
    | nil => cases hlines
    | cons part gapped =>
      obtain ⟨gap, line⟩ := part
      obtain ⟨gap', line'⟩ := part'
      obtain ⟨hline, htail⟩ := List.cons.inj hlines
      obtain rfl : line = line' := hline
      obtain ⟨hpart, hgap⟩ := List.forall_mem_cons.1 hgap
      obtain ⟨hpart', hgap'⟩ := List.forall_mem_cons.1 hgap'
      have hfront : (front ++ gap).filter (· != ' ') = (front' ++ gap').filter (· != ' ') := by
        rw [List.filter_append, List.filter_append, hkept, filter_gap hpart _ rfl,
          filter_gap hpart' _ rfl]
      have htext' :
          (front ++ gap) ++ (line ++ (gapped.flatMap (fun part => part.1 ++ part.2) ++ last)) =
            (front' ++ gap') ++
              (line ++ (other.flatMap (fun part => part.1 ++ part.2) ++ last')) := by
        simpa using htext
      rcases List.mem_cons.1 hspan with rfl | hspan
      · have hlength := length_eq_of_append_eq hfront hword htext'
        rw [List.length_append, List.length_append] at hlength
        rw [lineSpansFrom, ← hlength]
        exact List.mem_cons_self
      · refine List.mem_cons_of_mem _ ?_
        rw [← List.length_append, ← List.length_append] at hspan ⊢
        refine ih htail hgap hgap' ?_ (by simpa using htext') hspan
        rw [List.filter_append, hfront, ← List.filter_append]

/-- **One place for a line.**  However the lines of a text are found in it, those that are not
all spaces are found in the same places. -/
theorem Layout.mem_spans {text : List Char} (layout other : Layout text lines) {span : Span}
    (hspan : span ∈ other.spans) (hword : ∃ c ∈ span.text, c ≠ ' ') : span ∈ layout.spans := by
  have hspan' : span ∈ lineSpansFrom ([] : List Char).length other.gapped := hspan
  exact mem_lineSpansFrom_of_eq (layout.map_snd.trans other.map_snd.symm) layout.gap other.gap rfl
    (layout.text_eq.trans other.text_eq.symm) hspan' hword

end ExposureKit.Wrap
