import Mathlib.Data.List.Infix
import Mathlib.Data.Nat.Find
import ExposureKit.Text.Split

/-!
# Patterns of fields

A pattern is a row of parts, each of which takes characters of one kind, so many of them.  A match
takes a field for each part off the front of a text.  There may be several; the greedy one lets
each part in turn take as many characters as it can while the others still find theirs.

* `existsUnique_isGreedyMatch`: where there is a match there is one greedy match.
* `isMatch_field_iff`: a part takes the field before a separator, if it takes no separators.
-/

namespace ExposureKit

/-- Characters of one kind: at least so many, and at most so many if there is a bound. -/
structure PatternPart where
  /-- The kind of the characters. -/
  accepts : Char → Bool
  /-- At least so many. -/
  least : Nat
  /-- At most so many. -/
  most? : Option Nat

namespace PatternPart

/-- So many characters. -/
def exactly (accepts : Char → Bool) (count : Nat) : PatternPart := ⟨accepts, count, some count⟩

/-- So many characters or more. -/
def atLeast (accepts : Char → Bool) (count : Nat) : PatternPart := ⟨accepts, count, none⟩

/-- The part can take this field. -/
structure Fits (part : PatternPart) (field : List Char) : Prop where
  /-- The characters are of the kind. -/
  accepted : ∀ c ∈ field, part.accepts c = true
  /-- They are not too few. -/
  least : part.least ≤ field.length
  /-- They are not too many. -/
  most : ∀ most ∈ part.most?, field.length ≤ most

end PatternPart

/-- The fields match the parts, one each, at the front of a text. -/
inductive IsMatch : (pattern : List PatternPart) → (fields : List (List Char)) →
    (text : List Char) → Prop
  /-- No part takes nothing. -/
  | nil (text : List Char) : IsMatch [] [] text
  /-- The first part takes a field, and the others match behind it. -/
  | cons {part : PatternPart} {pattern : List PatternPart} {field : List Char}
      {fields : List (List Char)} {rest : List Char} (hfits : part.Fits field)
      (hrest : IsMatch pattern fields rest) : IsMatch (part :: pattern) (field :: fields) (field ++ rest)

/-- The fields match, and no part could take more where those before it take what they take. -/
inductive IsGreedyMatch : (pattern : List PatternPart) → (fields : List (List Char)) →
    (text : List Char) → Prop
  /-- No part takes nothing. -/
  | nil (text : List Char) : IsGreedyMatch [] [] text
  /-- The first part takes the longest field behind which the others match, and they are greedy. -/
  | cons {part : PatternPart} {pattern : List PatternPart} {field : List Char}
      {fields : List (List Char)} {rest : List Char} (hfits : part.Fits field)
      (hrest : IsGreedyMatch pattern fields rest)
      (hlongest : ∀ other others, IsMatch (part :: pattern) (other :: others) (field ++ rest) →
        other.length ≤ field.length) :
      IsGreedyMatch (part :: pattern) (field :: fields) (field ++ rest)

variable {part : PatternPart} {pattern : List PatternPart} {field text : List Char}
  {fields others : List (List Char)}

/-! ## Greedy matches -/

theorem IsGreedyMatch.isMatch (h : IsGreedyMatch pattern fields text) :
    IsMatch pattern fields text := by
  induction h with
  | nil text => exact .nil text
  | cons hfits _ _ ih => exact .cons hfits ih

/-- What the first part takes stands at the front, and the others match behind it. -/
theorem isMatch_cons_iff :
    IsMatch (part :: pattern) fields text ↔ ∃ field others rest, fields = field :: others ∧
      text = field ++ rest ∧ part.Fits field ∧ IsMatch pattern others rest := by
  constructor
  · rintro (_ | ⟨hfits, hrest⟩)
    exact ⟨_, _, _, rfl, rfl, hfits, hrest⟩
  · rintro ⟨field, others, rest, rfl, rfl, hfits, hrest⟩
    exact .cons hfits hrest

/-- There is a field for each part. -/
theorem IsMatch.length_eq (h : IsMatch pattern fields text) : fields.length = pattern.length := by
  induction h with
  | nil => rfl
  | cons _ _ ih => rw [List.length_cons, List.length_cons, ih]

/-- There is only one greedy match. -/
theorem IsGreedyMatch.unique (h : IsGreedyMatch pattern fields text)
    (hother : IsGreedyMatch pattern others text) : fields = others := by
  induction h generalizing others with
  | nil => cases hother with | nil => rfl
  | @cons part pattern field fields rest hfits hrest hlongest ih =>
    generalize htext : field ++ rest = text at hother
    cases hother with
    | @cons _ _ other others otherRest hotherFits hotherRest hotherLongest =>
      -- neither field is longer than the other, and both stand at the front of the text
      have hle := hlongest other others (htext ▸ .cons hotherFits hotherRest.isMatch)
      have hge := hotherLongest field fields (htext ▸ .cons hfits hrest.isMatch)
      obtain ⟨rfl, rfl⟩ := List.append_inj htext (Nat.le_antisymm hge hle)
      rw [ih hotherRest]

/-- What the first part takes is no longer than the text. -/
theorem IsMatch.length_le (h : IsMatch (part :: pattern) (field :: fields) text) :
    field.length ≤ text.length := by
  cases h with
  | cons => rw [List.length_append]; exact Nat.le_add_right _ _

/-- Where there is a match there is a greedy one. -/
theorem exists_isGreedyMatch (h : IsMatch pattern fields text) :
    ∃ others, IsGreedyMatch pattern others text := by
  classical
  induction pattern generalizing fields text with
  | nil => cases h with | nil => exact ⟨[], .nil text⟩
  | cons part pattern ih =>
    obtain ⟨first, others, -, rfl, -, -, -⟩ := isMatch_cons_iff.1 h
    -- of the lengths that a field of the first part can have, the greatest is taken
    let Taken : Nat → Prop := fun length =>
      ∃ field others, IsMatch (part :: pattern) (field :: others) text ∧ field.length = length
    obtain ⟨field, others, hmatch, hlength⟩ : Taken (Nat.findGreatest Taken text.length) :=
      Nat.findGreatest_spec h.length_le ⟨first, others, h, rfl⟩
    obtain ⟨_, _, rest, heq, rfl, hfits, hrest⟩ := isMatch_cons_iff.1 hmatch
    obtain ⟨rfl, rfl⟩ := List.cons.inj heq
    obtain ⟨greedy, hgreedy⟩ := ih hrest
    refine ⟨field :: greedy, .cons hfits hgreedy fun other others hother => ?_⟩
    rw [hlength]
    exact Nat.le_findGreatest hother.length_le ⟨other, others, hother, rfl⟩

theorem existsUnique_isGreedyMatch (h : IsMatch pattern fields text) :
    ∃! others, IsGreedyMatch pattern others text := by
  obtain ⟨others, hothers⟩ := exists_isGreedyMatch h
  exact ⟨others, hothers, fun other hother => hother.unique hothers⟩

/-- Behind the first fields the match is greedy too. -/
theorem IsGreedyMatch.drop (front : List (List Char))
    (h : IsGreedyMatch pattern (front ++ fields) (front.flatten ++ text)) :
    IsGreedyMatch (pattern.drop front.length) fields text := by
  induction front generalizing pattern with
  | nil => exact h
  | cons field front ih =>
    rw [List.cons_append, List.flatten_cons, List.append_assoc] at h
    generalize htext : field ++ (front.flatten ++ text) = whole at h
    cases h with
    | cons _ hrest _ =>
      rw [← List.append_cancel_left htext] at hrest
      exact ih hrest

/-- A run of characters that goes on as far as it can is taken as a whole. -/
theorem IsGreedyMatch.exists_run {c : Char} {rest : List Char} (hfits : part.Fits field)
    (hend : part.accepts c = false) (hrest : IsMatch pattern others (c :: rest))
    (h : IsGreedyMatch (part :: pattern) fields (field ++ c :: rest)) :
    ∃ tail, fields = field :: tail := by
  generalize htext : field ++ c :: rest = text at h
  cases h with
  | @cons _ _ taken fields left htaken _ hlongest =>
    have hle : field.length ≤ taken.length := hlongest field others (htext ▸ .cons hfits hrest)
    obtain ⟨more, rfl⟩ : field <+: taken :=
      List.prefix_of_prefix_length_le ⟨_, htext⟩ (List.prefix_append taken left) hle
    rw [List.append_assoc, List.append_cancel_left_eq] at htext
    cases more with
    | nil => exact ⟨fields, by rw [List.append_nil]⟩
    | cons d more =>
      obtain ⟨rfl, -⟩ := List.cons.inj htext
      have haccepts := htaken.accepted c (by simp)
      rw [hend] at haccepts
      cases haccepts

/-! ## Single characters and separators -/

theorem PatternPart.fits_exactly_iff {accepts : Char → Bool} {count : Nat} :
    (PatternPart.exactly accepts count).Fits field ↔
      (∀ c ∈ field, accepts c = true) ∧ field.length = count := by
  constructor
  · intro h
    exact ⟨h.accepted, Nat.le_antisymm (h.most count rfl) h.least⟩
  · rintro ⟨haccepted, rfl⟩
    refine ⟨haccepted, Nat.le_refl _, fun most hmost => ?_⟩
    exact Nat.le_of_eq (Option.some.inj hmost)

theorem PatternPart.fits_exactly_one_iff {accepts : Char → Bool} :
    (PatternPart.exactly accepts 1).Fits field ↔ ∃ c, accepts c = true ∧ field = [c] := by
  rw [PatternPart.fits_exactly_iff, List.length_eq_one_iff]
  constructor
  · rintro ⟨haccepted, c, rfl⟩
    exact ⟨c, haccepted c (by simp), rfl⟩
  · rintro ⟨c, hc, rfl⟩
    exact ⟨by simpa using hc, c, rfl⟩

/-- A part of one character takes the first one. -/
theorem isMatch_char_iff {accepts : Char → Bool} {c : Char} :
    IsMatch (.exactly accepts 1 :: pattern) fields (c :: text) ↔
      accepts c = true ∧ ∃ others, fields = [c] :: others ∧ IsMatch pattern others text := by
  rw [isMatch_cons_iff]
  constructor
  · rintro ⟨field, others, rest, rfl, htext, hfits, hrest⟩
    obtain ⟨d, hd, rfl⟩ := PatternPart.fits_exactly_one_iff.1 hfits
    obtain ⟨rfl, rfl⟩ := List.cons.inj htext
    exact ⟨hd, others, rfl, hrest⟩
  · rintro ⟨hc, others, rfl, hrest⟩
    exact ⟨[c], others, text, rfl, rfl, PatternPart.fits_exactly_one_iff.2 ⟨c, hc, rfl⟩, hrest⟩

/-- The first separator ends the field before it. -/
theorem append_separator_inj {separator : Char} {other rest : List Char} (hfield : separator ∉ field)
    (hother : separator ∉ other) (h : field ++ separator :: text = other ++ separator :: rest) :
    field = other ∧ text = rest := by
  have hsplit : splitOn separator (field ++ separator :: text) =
      field :: splitOn separator text := splitOn_append hfield
  rw [h, splitOn_append hother] at hsplit
  obtain rfl := (List.cons.inj hsplit).1
  exact ⟨rfl, (List.cons.inj (List.append_cancel_left h)).2⟩

/-- A part takes the field before a separator, if no separator is in what it could take. -/
theorem isMatch_field_iff {separator : Char} (hfield : separator ∉ field)
    (htaken : ∀ taken, part.Fits taken → taken <+: field ++ separator :: text → separator ∉ taken) :
    IsMatch (part :: .exactly (· == separator) 1 :: pattern) fields (field ++ separator :: text) ↔
      part.Fits field ∧ ∃ others, fields = field :: [separator] :: others ∧
        IsMatch pattern others text := by
  constructor
  · intro h
    obtain ⟨taken, others, rest, rfl, htext, hfits, hbehind⟩ := isMatch_cons_iff.1 h
    obtain ⟨sep, others, rest, rfl, rfl, hsep, hrest⟩ := isMatch_cons_iff.1 hbehind
    obtain ⟨c, hc, rfl⟩ := PatternPart.fits_exactly_one_iff.1 hsep
    obtain rfl : c = separator := beq_iff_eq.1 hc
    have hnotMem := htaken taken hfits ⟨_, htext.symm⟩
    obtain ⟨rfl, rfl⟩ := append_separator_inj hfield hnotMem htext
    exact ⟨hfits, others, rfl, hrest⟩
  · rintro ⟨hfits, others, rfl, hrest⟩
    exact .cons hfits (isMatch_char_iff.2 ⟨beq_self_eq_true separator, others, rfl, hrest⟩)

end ExposureKit
