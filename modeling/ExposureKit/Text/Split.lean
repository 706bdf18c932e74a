/-!
# Splitting text at a character

`splitOn` gives what stands between the separators of a text, empty parts included,
so that there is always one part more than there are separators.
-/

namespace ExposureKit

/-- The parts of a text between the characters `separator`. -/
def splitOn (separator : Char) : List Char → List (List Char)
  | [] => [[]]
  | c :: text =>
    if c = separator then [] :: splitOn separator text
    else match splitOn separator text with
      | [] => [[c]]
      | part :: parts => (c :: part) :: parts

/-- Splitting takes off one part without separators at a time. -/
theorem splitOn_append {separator : Char} {part rest : List Char} (h : separator ∉ part) :
    splitOn separator (part ++ separator :: rest) = part :: splitOn separator rest := by
  induction part with
  | nil => simp [splitOn]
  | cons c part ih =>
    have hc : c ≠ separator := fun hc => h (by simp [hc])
    have hrest : separator ∉ part := fun hx => h (by simp [hx])
    rw [List.cons_append, splitOn, if_neg hc, ih hrest]

/-- Lines that are ended by separators are found again by splitting at these. -/
theorem splitOn_flatMap {separator : Char} {lines : List (List Char)}
    (h : ∀ line ∈ lines, separator ∉ line) :
    splitOn separator (lines.flatMap (· ++ [separator])) = lines ++ [[]] := by
  induction lines with
  | nil => rfl
  | cons line lines ih =>
    have hline : separator ∉ line := h line (by simp)
    have hlines : ∀ other ∈ lines, separator ∉ other := fun other hother => h other (by simp [hother])
    rw [List.flatMap_cons, List.append_assoc, List.singleton_append, splitOn_append hline, ih hlines,
      List.cons_append]

end ExposureKit
