import Mathlib.Data.List.Induction
import ExposureKit.Bytes.Base64

/-!
# What cleaning leaves of a text

`cleanFrom` runs through a text with two counters.  Here they are read off the text that
it has passed: the symbols so far, counted in groups of four, and the padding signs since
the last symbol.  `IsClosing` says in these terms, and without running anything, which
padding signs close a group.

* `clean_append`: up to the first closing sign, the symbols are kept and the counters are
  those of the text that has been passed.
* `clean_of_isClosing`, `clean_of_not_isClosing`: what is left of a text with and without
  a closing sign.
* `clean_filter_isSignificant`: noise makes no difference.
-/

namespace ExposureKit.Base64

/-! ## Closing signs -/

/-- A byte that is not noise: a symbol or padding. -/
def isSignificant (b : UInt8) : Bool := isSymbol b || b == pad

/-- The number of symbols in a text. -/
def symbolCount (text : List UInt8) : Nat := text.countP isSymbol

/-- What stands after the last symbol of a text, the last byte first. -/
def sinceSymbol (text : List UInt8) : List UInt8 := text.reverse.takeWhile (!isSymbol ·)

/-- A padding sign after this text closes a group, for the group has three symbols, or it
has two and a padding sign has followed them already. -/
def Closes (before : List UInt8) : Prop :=
  symbolCount before % 4 = 3 ∨ (symbolCount before % 4 = 2 ∧ pad ∈ sinceSymbol before)

instance (before : List UInt8) : Decidable (Closes before) :=
  inferInstanceAs (Decidable (_ ∨ _))

/-- There is a closing sign at this position of the text. -/
def IsClosing (text : List UInt8) (position : Nat) : Prop :=
  text[position]? = some pad ∧ Closes (text.take position)

instance (text : List UInt8) (position : Nat) : Decidable (IsClosing text position) :=
  inferInstanceAs (Decidable (_ ∧ _))

theorem IsClosing.lt_length {text : List UInt8} {position : Nat} (h : IsClosing text position) :
    position < text.length := by
  obtain ⟨hlt, -⟩ := List.getElem?_eq_some_iff.1 h.1
  exact hlt

/-- Which signs of a text close a group does not depend on what is written behind it. -/
theorem isClosing_append_iff {text : List UInt8} {position : Nat} (h : position < text.length)
    (rest : List UInt8) : IsClosing (text ++ rest) position ↔ IsClosing text position := by
  unfold IsClosing
  rw [List.getElem?_append_left h, List.take_append_of_le_length (Nat.le_of_lt h)]

/-- A closing sign stays one when the text goes on. -/
theorem IsClosing.append {before : List UInt8} {position : Nat} (h : IsClosing before position)
    (rest : List UInt8) : IsClosing (before ++ rest) position :=
  (isClosing_append_iff h.lt_length rest).2 h

theorem isClosing_length {before rest : List UInt8} (h : Closes before) :
    IsClosing (before ++ pad :: rest) before.length := by
  refine ⟨by simp, ?_⟩
  rw [List.take_left]
  exact h

/-! ## The counters after a text -/

/-- The symbols of the group that has been begun. -/
def phaseAfter (before : List UInt8) : Nat := symbolCount before % 4

/-- The padding signs that count towards closing that group. -/
def padsAfter (before : List UInt8) : Nat :=
  if 2 ≤ phaseAfter before then (sinceSymbol before).count pad else 0

theorem ne_pad_of_isSymbol {b : UInt8} (h : isSymbol b = true) : b ≠ pad := by
  rintro rfl
  rw [isSymbol_pad] at h
  cases h

@[simp] theorem symbolCount_concat (before : List UInt8) (b : UInt8) :
    symbolCount (before ++ [b]) = symbolCount before + if isSymbol b then 1 else 0 := by
  rw [symbolCount, List.countP_append, List.countP_singleton]
  rfl

theorem sinceSymbol_concat (before : List UInt8) (b : UInt8) :
    sinceSymbol (before ++ [b]) = if isSymbol b then [] else b :: sinceSymbol before := by
  rw [sinceSymbol, List.reverse_concat, List.takeWhile_cons]
  cases isSymbol b <;> rfl

theorem phaseAfter_concat_of_isSymbol {b : UInt8} (hb : isSymbol b = true)
    (before : List UInt8) : phaseAfter (before ++ [b]) = (phaseAfter before + 1) % 4 := by
  rw [phaseAfter, symbolCount_concat, hb, phaseAfter]
  simp

theorem phaseAfter_concat_of_not_isSymbol {b : UInt8} (hb : isSymbol b = false)
    (before : List UInt8) : phaseAfter (before ++ [b]) = phaseAfter before := by
  rw [phaseAfter, symbolCount_concat, hb, phaseAfter]
  simp

theorem padsAfter_concat_of_isSymbol {b : UInt8} (hb : isSymbol b = true)
    (before : List UInt8) : padsAfter (before ++ [b]) = 0 := by
  rw [padsAfter, sinceSymbol_concat, hb]
  simp

theorem padsAfter_concat_pad (before : List UInt8) :
    padsAfter (before ++ [pad]) = if 2 ≤ phaseAfter before then padsAfter before + 1 else 0 := by
  rw [padsAfter, phaseAfter_concat_of_not_isSymbol isSymbol_pad, sinceSymbol_concat, isSymbol_pad]
  split
  · next h => simp [padsAfter, h]
  · rfl

theorem padsAfter_concat_of_noise {b : UInt8} (hb : isSymbol b = false) (hpad : b ≠ pad)
    (before : List UInt8) : padsAfter (before ++ [b]) = padsAfter before := by
  rw [padsAfter, phaseAfter_concat_of_not_isSymbol hb, sinceSymbol_concat, hb, padsAfter]
  simp [hpad]

/-- A sign closes a group exactly when the counters say that it makes four. -/
theorem closes_iff (before : List UInt8) :
    Closes before ↔ 2 ≤ phaseAfter before ∧ 4 ≤ phaseAfter before + (padsAfter before + 1) := by
  have hlt : phaseAfter before < 4 := Nat.mod_lt _ (by decide)
  have hcount : 0 < (sinceSymbol before).count pad ↔ pad ∈ sinceSymbol before :=
    List.count_pos_iff
  rw [Closes, ← phaseAfter, ← hcount, padsAfter]
  split <;> omega

/-- While no group has been closed, symbols and padding signs make less than four. -/
theorem phaseAfter_add_padsAfter_lt {before : List UInt8} (h : ∀ i, ¬IsClosing before i) :
    phaseAfter before + padsAfter before < 4 := by
  have hphase : phaseAfter before < 4 := Nat.mod_lt _ (by decide)
  induction before using List.reverseRecOn with
  | nil => decide
  | append_singleton before b ih =>
    have hbefore : ∀ i, ¬IsClosing before i := fun i hi => h i (hi.append [b])
    have hlt := ih hbefore (Nat.mod_lt _ (by decide))
    by_cases hsymbol : isSymbol b = true
    · rw [padsAfter_concat_of_isSymbol hsymbol]
      exact hphase
    · rw [Bool.not_eq_true] at hsymbol
      rw [phaseAfter_concat_of_not_isSymbol hsymbol] at hphase ⊢
      by_cases hpad : b = pad
      · subst hpad
        have hcloses : ¬Closes before := fun hc => h before.length (isClosing_length hc)
        rw [closes_iff] at hcloses
        rw [padsAfter_concat_pad]
        split <;> omega
      · rw [padsAfter_concat_of_noise hsymbol hpad]
        exact hlt

/-! ## Cleaning step by step -/

/-- A symbol is kept and opens the next place of the group. -/
theorem cleanFrom_of_isSymbol {b : UInt8} (hb : isSymbol b = true) (before rest : List UInt8) :
    cleanFrom (phaseAfter before) (padsAfter before) (b :: rest) =
      b :: cleanFrom (phaseAfter (before ++ [b])) (padsAfter (before ++ [b])) rest := by
  rw [cleanFrom, if_neg (ne_pad_of_isSymbol hb), if_pos hb, phaseAfter_concat_of_isSymbol hb,
    padsAfter_concat_of_isSymbol hb]

/-- Any other byte is passed over, unless it is a sign that closes a group. -/
theorem cleanFrom_of_not_isSymbol {b : UInt8} (hb : isSymbol b = false) (before rest : List UInt8)
    (hopen : b = pad → ¬Closes before) :
    cleanFrom (phaseAfter before) (padsAfter before) (b :: rest) =
      cleanFrom (phaseAfter (before ++ [b])) (padsAfter (before ++ [b])) rest := by
  rw [cleanFrom, phaseAfter_concat_of_not_isSymbol hb]
  by_cases hpad : b = pad
  · subst hpad
    have hcloses := hopen rfl
    rw [closes_iff, not_and] at hcloses
    rw [if_pos rfl, padsAfter_concat_pad]
    by_cases hphase : 2 ≤ phaseAfter before
    · rw [if_pos hphase, if_neg (hcloses hphase), if_pos hphase]
    · have hpads : padsAfter before = 0 := if_neg hphase
      rw [if_neg hphase, if_neg hphase, hpads]
  · rw [if_neg hpad, if_neg (by simp [hb]), padsAfter_concat_of_noise hb hpad]

/-- A closing sign ends the text. -/
theorem cleanFrom_of_closes {before : List UInt8} (h : Closes before) (rest : List UInt8) :
    cleanFrom (phaseAfter before) (padsAfter before) (pad :: rest) =
      List.replicate (padsAfter before + 1) pad := by
  obtain ⟨hphase, hfour⟩ := (closes_iff before).1 h
  rw [cleanFrom, if_pos rfl, if_pos hphase, if_pos hfour]

/-! ## Cleaning a text -/

/-- Up to the first closing sign the symbols are kept, and cleaning goes on with the
counters of what has been passed. -/
theorem clean_append {before : List UInt8} (h : ∀ i, ¬IsClosing before i) (rest : List UInt8) :
    clean (before ++ rest) =
      before.filter isSymbol ++ cleanFrom (phaseAfter before) (padsAfter before) rest := by
  induction before using List.reverseRecOn generalizing rest with
  | nil => rfl
  | append_singleton before b ih =>
    have hbefore : ∀ i, ¬IsClosing before i := fun i hi => h i (hi.append [b])
    rw [List.append_assoc, List.singleton_append, ih hbefore, List.filter_append]
    by_cases hsymbol : isSymbol b = true
    · rw [cleanFrom_of_isSymbol hsymbol]
      simp [hsymbol]
    · rw [Bool.not_eq_true] at hsymbol
      rw [cleanFrom_of_not_isSymbol hsymbol before rest]
      · simp [hsymbol]
      · rintro rfl hc
        exact h before.length (isClosing_length hc)

/-- A text without a closing sign is left with its symbols. -/
theorem clean_of_not_isClosing {text : List UInt8} (h : ∀ i, ¬IsClosing text i) :
    clean text = text.filter isSymbol := by
  have hclean := clean_append h []
  rwa [List.append_nil, cleanFrom, List.append_nil] at hclean

/-- A text is left with the symbols before its first closing sign, and with the padding
that makes their last group whole. -/
theorem clean_of_isClosing {text : List UInt8} {position : Nat} (h : IsClosing text position)
    (hfirst : ∀ i < position, ¬IsClosing text i) :
    2 ≤ symbolCount (text.take position) % 4 ∧
    clean text = (text.take position).filter isSymbol ++
      List.replicate (4 - symbolCount (text.take position) % 4) pad := by
  set before := text.take position with hbefore
  have hnone : ∀ i, ¬IsClosing before i := by
    intro i hi
    have hlt : i < position := by
      have := hi.lt_length
      rw [hbefore, List.length_take] at this
      omega
    apply hfirst i hlt
    rw [← List.take_append_drop position text]
    exact hi.append _
  have htext : text = before ++ pad :: text.drop (position + 1) := by
    obtain ⟨hlt, hget⟩ := List.getElem?_eq_some_iff.1 h.1
    rw [← hget, ← List.drop_eq_getElem_cons hlt, hbefore, List.take_append_drop]
  have hcloses : Closes before := h.2
  obtain ⟨hphase, hfour⟩ := (closes_iff before).1 hcloses
  refine ⟨hphase, ?_⟩
  have hpads : padsAfter before + 1 = 4 - symbolCount before % 4 := by
    have hlt := phaseAfter_add_padsAfter_lt hnone
    rw [phaseAfter] at hlt hfour
    omega
  rw [htext, clean_append hnone, cleanFrom_of_closes hcloses, hpads]

/-! ## Noise -/

theorem cleanFrom_filter_isSignificant (phase pads : Nat) (text : List UInt8) :
    cleanFrom phase pads (text.filter isSignificant) = cleanFrom phase pads text := by
  induction text generalizing phase pads with
  | nil => rfl
  | cons b text ih =>
    by_cases hb : isSignificant b = true
    · rw [List.filter_cons_of_pos hb, cleanFrom, cleanFrom]
      simp only [ih]
    · rw [List.filter_cons_of_neg hb, ih, cleanFrom]
      simp only [isSignificant, Bool.or_eq_true, beq_iff_eq, not_or, Bool.not_eq_true] at hb
      rw [if_neg hb.2, if_neg (by simp [hb.1])]

/-- Noise makes no difference. -/
theorem clean_filter_isSignificant (text : List UInt8) :
    clean (text.filter isSignificant) = clean text :=
  cleanFrom_filter_isSignificant 0 0 text

end ExposureKit.Base64
