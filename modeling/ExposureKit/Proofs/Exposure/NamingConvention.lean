import ExposureKit.Proofs.Exposure.NameText
import ExposureKit.Proofs.Text.FieldPattern

/-!
# The naming convention

By convention the name of an exposure file has codes of one character, a date of eight and four
runs of digits, with underscores between them, and then whatever else the line holds
(`namingPattern`).  Names have this form if the date fits into its eight characters; which years do
so is said by `Date.length_text_eq_iff`.

The main result is `text_convention`.
-/

namespace ExposureKit.ExposureName

/-! ## The pattern -/

/-- Any character but a line feed. -/
def notLineFeed (c : Char) : Bool := c != '\n'

/-- The separator of fields. -/
def underscore : PatternPart := .exactly (· == '_') 1

/-- A number. -/
def digitRun : PatternPart := .atLeast Char.isDigit 1

/-- What may stand behind the fields. -/
def restOfLine : PatternPart := .atLeast notLineFeed 0

/-- The form of a name by convention. -/
def namingPattern : List PatternPart :=
  [.exactly notLineFeed 1, underscore, .exactly notLineFeed 1, underscore,
    .exactly notLineFeed 8, underscore, digitRun, underscore, digitRun, underscore,
    digitRun, underscore, digitRun, restOfLine]

/-- A text of digits writes a number, with no zero in front that could be left out. -/
def IsNumeral (text : List Char) (n : UInt32) : Prop :=
  Decimal.read? text = some n.toNat ∧ (text.head? = some '0' → text = ['0'])

/-- Eight digits write a date: its year, its month and its day. -/
structure IsDateNumeral (text : List Char) (date : Date) : Prop where
  /-- There are eight digits. -/
  digits : text.length = 8 ∧ ∀ c ∈ text, c.isDigit = true
  /-- The first four are those of the year. -/
  year : (Decimal.read? (text.take 4)).map Int.ofNat = some date.year
  /-- The next two are those of the month. -/
  month : Decimal.read? ((text.drop 4).take 2) = some date.month
  /-- The last two are those of the day. -/
  day : Decimal.read? (text.drop 6) = some date.day

/-- The fields tell the date and the numbers of a name. -/
def FieldsTell (fields : List (List Char)) (name : ExposureName) : Prop :=
  ∃ date multiRun run window processing rest,
    fields = [[name.instrument], ['_'], [name.exposure], ['_'], date, ['_'], multiRun, ['_'],
      run, ['_'], window, ['_'], processing, rest] ∧
    IsDateNumeral date name.date ∧ IsNumeral multiRun name.multiRun ∧ IsNumeral run name.run ∧
    IsNumeral window name.window ∧ IsNumeral processing name.processing

/-! ## Fields of a name -/

theorem isNumeral_numberText (n : UInt32) : IsNumeral (numberText n) n := by
  refine ⟨Decimal.read?_digits n.toNat, fun hzero => ?_⟩
  unfold numberText at hzero ⊢
  rw [Decimal.eq_zero_of_head?_digits hzero]
  rfl

theorem digitRun_fits (n : UInt32) : digitRun.Fits (numberText n) where
  accepted _ hc := Decimal.isDigit_of_mem_digits hc
  least := List.length_pos_iff.2 (Decimal.digits_ne_nil n.toNat)
  most _ hmost := nomatch hmost

theorem isDateNumeral_text {date : Date} (hyear : 0 ≤ date.year ∧ date.year ≤ 9999) :
    IsDateNumeral date.text date := by
  have htext : date.text = Decimal.padded 4 date.year.toNat ++
      (Decimal.padded 2 date.month ++ Decimal.padded 2 date.day) := by
    rw [Date.text, Date.yearText, if_pos hyear, List.append_assoc]
  have hdigits : date.year.toNat < 10 ^ 4 := by omega
  have hyearLength := Date.length_padded_of_lt (by decide) hdigits
  have hmonthLength := Date.length_padded_two date.month_lt
  refine ⟨⟨date.length_text_eq_iff.2 hyear, fun c hc => ?_⟩, ?_, ?_, ?_⟩
  · rw [htext] at hc
    rcases List.mem_append.1 hc with hc | hc
    · exact Decimal.isDigit_of_mem_padded hc
    · exact (List.mem_append.1 hc).elim Decimal.isDigit_of_mem_padded Decimal.isDigit_of_mem_padded
  · rw [htext, List.take_left' hyearLength, Decimal.read?_padded]
    exact congrArg some (Int.toNat_of_nonneg hyear.1)
  · rw [htext, List.drop_left' hyearLength, List.take_left' hmonthLength, Decimal.read?_padded]
  · have hdrop : date.text.drop 6 = (date.text.drop 4).drop 2 := by rw [List.drop_drop]
    rw [hdrop, htext, List.drop_left' hyearLength, List.drop_left' hmonthLength,
      Decimal.read?_padded]

variable {pattern : List PatternPart} {fields : List (List Char)} {text : List Char}

/-- A code is taken with the separator behind it, if it is no line feed. -/
theorem isMatch_code_iff {code : Char} :
    IsMatch (.exactly notLineFeed 1 :: underscore :: pattern) fields (code :: '_' :: text) ↔
      code ≠ '\n' ∧ ∃ others, fields = [code] :: ['_'] :: others ∧ IsMatch pattern others text := by
  rw [isMatch_char_iff, notLineFeed, bne_iff_ne]
  refine and_congr_right fun _ => ?_
  constructor
  · rintro ⟨behind, rfl, hbehind⟩
    obtain ⟨-, others, rfl, h⟩ := isMatch_char_iff.1 hbehind
    exact ⟨others, rfl, h⟩
  · rintro ⟨others, rfl, h⟩
    exact ⟨_, rfl, isMatch_char_iff.2 ⟨beq_self_eq_true '_', others, rfl, h⟩⟩

/-- A number is taken with the separator behind it. -/
theorem isMatch_number_iff {n : UInt32} :
    IsMatch (digitRun :: underscore :: pattern) fields (numberText n ++ '_' :: text) ↔
      ∃ others, fields = numberText n :: ['_'] :: others ∧ IsMatch pattern others text := by
  have hno : ∀ taken, digitRun.Fits taken → taken <+: numberText n ++ '_' :: text → '_' ∉ taken :=
    fun taken hfits _ hmem => absurd (hfits.accepted '_' hmem) (by decide)
  exact (isMatch_field_iff (notMem_numberText (by decide) n) hno).trans
    (and_iff_right (digitRun_fits n))

/-- A date is taken with the separator behind it, if it has eight characters. -/
theorem isMatch_date_iff {date : Date} :
    IsMatch (.exactly notLineFeed 8 :: underscore :: pattern) fields (date.text ++ '_' :: text) ↔
      date.text.length = 8 ∧ ∃ others, fields = date.text :: ['_'] :: others ∧
        IsMatch pattern others text := by
  have hno : ∀ taken, (PatternPart.exactly notLineFeed 8).Fits taken →
      taken <+: date.text ++ '_' :: text → '_' ∉ taken := by
    intro taken hfits htaken hmem
    have hlength : taken.length ≤ date.text.length := by
      rw [(PatternPart.fits_exactly_iff.1 hfits).2]
      exact date.eight_le_length_text
    have hdate := List.prefix_of_prefix_length_le htaken (List.prefix_append _ _) hlength
    exact underscore_notMem_date date (hdate.subset hmem)
  have hfits : (PatternPart.exactly notLineFeed 8).Fits date.text ↔ date.text.length = 8 := by
    rw [PatternPart.fits_exactly_iff]
    refine and_iff_right fun c hc => bne_iff_ne.2 ?_
    rintro rfl
    exact notMem_dateText (by decide) (by decide) date hc
  exact (isMatch_field_iff (underscore_notMem_date date) hno).trans (and_congr_left' hfits)

/-! ## Names -/

/-- The fields of a name up to its last number. -/
def leadingFields (name : ExposureName) : List (List Char) :=
  [[name.instrument], ['_'], [name.exposure], ['_'], name.date.text, ['_'],
    numberText name.multiRun, ['_'], numberText name.run, ['_'], numberText name.window, ['_']]

/-- A name is matched field by field up to its last number. -/
theorem isMatch_text_iff (name : ExposureName) :
    IsMatch namingPattern fields name.text ↔
      name.date.text.length = 8 ∧ name.instrument ≠ '\n' ∧ name.exposure ≠ '\n' ∧
        ∃ last, fields = name.leadingFields ++ last ∧
          IsMatch [digitRun, restOfLine] last
            (numberText name.processing ++ '.' :: name.extension.toList) := by
  rw [text_eq, namingPattern]
  constructor
  · intro h
    obtain ⟨hinstrument, coded, rfl, hcoded⟩ := isMatch_code_iff.1 h
    obtain ⟨hexposure, dated, rfl, hdated⟩ := isMatch_code_iff.1 hcoded
    obtain ⟨hdate, numbered, rfl, hnumbered⟩ := isMatch_date_iff.1 hdated
    obtain ⟨runs, rfl, hruns⟩ := isMatch_number_iff.1 hnumbered
    obtain ⟨windows, rfl, hwindows⟩ := isMatch_number_iff.1 hruns
    obtain ⟨last, rfl, hlast⟩ := isMatch_number_iff.1 hwindows
    exact ⟨hdate, hinstrument, hexposure, last, rfl, hlast⟩
  · rintro ⟨hdate, hinstrument, hexposure, last, rfl, hlast⟩
    refine isMatch_code_iff.2 ⟨hinstrument, _, rfl, isMatch_code_iff.2 ⟨hexposure, _, rfl, ?_⟩⟩
    refine isMatch_date_iff.2 ⟨hdate, _, rfl, isMatch_number_iff.2 ⟨_, rfl, ?_⟩⟩
    exact isMatch_number_iff.2 ⟨_, rfl, isMatch_number_iff.2 ⟨last, rfl, hlast⟩⟩

/-- Nothing need be behind the last number. -/
theorem isMatch_rest (behind : List Char) : IsMatch [restOfLine] [[]] behind := by
  have hnone : restOfLine.Fits [] := ⟨by simp, Nat.le_refl 0, fun _ hmost => nomatch hmost⟩
  exact .cons hnone (.nil behind)

/-- Names match the pattern as long as the date and the codes fit into it. -/
theorem exists_isMatch_iff (name : ExposureName) :
    (∃ fields, IsMatch namingPattern fields name.text) ↔
      (0 ≤ name.date.year ∧ name.date.year ≤ 9999) ∧
        name.instrument ≠ '\n' ∧ name.exposure ≠ '\n' := by
  rw [← Date.length_text_eq_iff]
  constructor
  · rintro ⟨fields, h⟩
    obtain ⟨hdate, hinstrument, hexposure, -⟩ := name.isMatch_text_iff.1 h
    exact ⟨hdate, hinstrument, hexposure⟩
  · rintro ⟨hdate, hinstrument, hexposure⟩
    have hlast : IsMatch [digitRun, restOfLine] [numberText name.processing, []]
        (numberText name.processing ++ '.' :: name.extension.toList) :=
      .cons (digitRun_fits name.processing) (isMatch_rest _)
    exact ⟨_, name.isMatch_text_iff.2 ⟨hdate, hinstrument, hexposure, _, rfl, hlast⟩⟩

/-- The greedy match takes all of the last number, behind which a dot stands. -/
theorem fields_eq_of_isGreedyMatch {name : ExposureName}
    (h : IsGreedyMatch namingPattern fields name.text) :
    ∃ rest, fields = name.leadingFields ++ [numberText name.processing, rest] := by
  obtain ⟨-, -, -, last, rfl, hlast⟩ := name.isMatch_text_iff.1 h.isMatch
  have htext : name.text = name.leadingFields.flatten ++
      (numberText name.processing ++ '.' :: name.extension.toList) := by
    rw [text_eq]
    simp only [leadingFields, List.flatten_cons, List.flatten_nil, List.append_assoc,
      List.cons_append, List.nil_append, List.append_nil]
  rw [htext] at h
  have hgreedy : IsGreedyMatch [digitRun, restOfLine] last
      (numberText name.processing ++ '.' :: name.extension.toList) := h.drop name.leadingFields
  obtain ⟨tail, rfl⟩ := hgreedy.exists_run (digitRun_fits name.processing) rfl (isMatch_rest _)
  obtain ⟨rest, rfl⟩ := List.length_eq_one_iff.1 (Nat.succ.inj hlast.length_eq)
  exact ⟨rest, rfl⟩

/-- **Names follow the convention.**  The text of a name starts with a match of the pattern if its
year has four digits and no code is a line feed, and only then.  Its greedy match is then the only
one, and tells the date and the numbers. -/
theorem text_convention (name : ExposureName) :
    ((∃ fields, IsMatch namingPattern fields name.text) ↔
      (0 ≤ name.date.year ∧ name.date.year ≤ 9999) ∧
        name.instrument ≠ '\n' ∧ name.exposure ≠ '\n') ∧
    ((∃ fields, IsMatch namingPattern fields name.text) →
      ∃! fields, IsGreedyMatch namingPattern fields name.text) ∧
    ∀ fields, IsGreedyMatch namingPattern fields name.text → FieldsTell fields name := by
  refine ⟨name.exists_isMatch_iff, ?_, ?_⟩
  · rintro ⟨fields, h⟩
    exact existsUnique_isGreedyMatch h
  · intro fields h
    obtain ⟨rest, rfl⟩ := fields_eq_of_isGreedyMatch h
    have hyear := (name.exists_isMatch_iff.1 ⟨_, h.isMatch⟩).1
    exact ⟨_, _, _, _, _, rest, rfl, isDateNumeral_text hyear, isNumeral_numberText _,
      isNumeral_numberText _, isNumeral_numberText _, isNumeral_numberText _⟩

/-- Here the codes are separators themselves, and the extension begins with a line feed. -/
theorem text_convention_underscores :
    ∃ fields, IsGreedyMatch namingPattern fields "____00070830_11_10_1_0.\nfits".toList ∧
      FieldsTell fields ⟨'_', '_', ⟨7, 8, 30, by decide⟩, 11, 10, 1, 0, "\nfits"⟩ := by
  obtain ⟨hmatch, hunique, htell⟩ :=
    text_convention ⟨'_', '_', ⟨7, 8, 30, by decide⟩, 11, 10, 1, 0, "\nfits"⟩
  obtain ⟨fields, hfields, -⟩ := hunique (hmatch.2 (by decide))
  exact ⟨fields, hfields, htell fields hfields⟩

end ExposureKit.ExposureName
