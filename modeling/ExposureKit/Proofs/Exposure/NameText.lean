import ExposureKit.Exposure.Name
import ExposureKit.Proofs.Calendar.DateText

/-!
# Names of exposure files read back

The two codes at the front may be any characters, the separators among them, and so may those
of the extension; they are told by their places.  Between them stand the date and four numbers,
and neither a date nor a number holds a separator, so that each ends where the next separator
stands (`splitFirst_append`).

* `read?_text`, `fileName_injective`: a name reads back, and no two names are called the same.
-/

namespace ExposureKit.ExposureName

/-! ## Fields -/

/-- A field is cut off where the first separator stands behind it. -/
theorem splitFirst_append {separator : Char} {field : List Char} (hfield : separator ∉ field)
    (rest : List Char) :
    splitFirst separator (field ++ separator :: rest) = some (field, rest) := by
  have hne : ∀ c ∈ field, (c != separator) = true := by
    intro c hc
    rw [bne_iff_ne]
    rintro rfl
    exact hfield hc
  unfold splitFirst
  rw [List.dropWhile_append_of_pos hne, List.dropWhile_cons_of_neg (by simp),
    List.takeWhile_append_of_pos hne, List.takeWhile_cons_of_neg (by simp), List.append_nil]

/-- A number is read from its digits. -/
theorem readNumber?_numberText (n : UInt32) : readNumber? (numberText n) = some n := by
  unfold readNumber? numberText
  rw [Decimal.read?_digits, Option.bind_some, if_pos n.toNat_lt_size, UInt32.ofNat_toNat]

/-- Only digits stand in a number. -/
theorem notMem_numberText {c : Char} (hc : c.isDigit = false) (n : UInt32) : c ∉ numberText n := by
  intro hmem
  rw [Decimal.isDigit_of_mem_digits hmem] at hc
  cases hc

/-- Digits and at most a sign stand in a year. -/
theorem mem_yearText {c : Char} {year : Int} (hc : c ∈ Date.yearText year) :
    c.isDigit = true ∨ c = '-' ∨ c = '+' := by
  unfold Date.yearText at hc
  split at hc
  · exact .inl (Decimal.isDigit_of_mem_padded hc)
  · rcases List.mem_cons.1 hc with rfl | hc
    · split <;> simp
    · exact .inl (Decimal.isDigit_of_mem_padded hc)

/-- What is neither a digit nor a sign does not stand in a date. -/
theorem notMem_dateText {c : Char} (hdigit : c.isDigit = false) (hsign : c ≠ '-' ∧ c ≠ '+')
    (date : Date) : c ∉ date.text := by
  intro hmem
  have hdigit : c.isDigit ≠ true := Bool.eq_false_iff.1 hdigit
  unfold Date.text at hmem
  rcases List.mem_append.1 hmem with hmem | hday
  · rcases List.mem_append.1 hmem with hyear | hmonth
    · rcases mem_yearText hyear with h | h | h
      · exact hdigit h
      · exact hsign.1 h
      · exact hsign.2 h
    · exact hdigit (Decimal.isDigit_of_mem_padded hmonth)
  · exact hdigit (Decimal.isDigit_of_mem_padded hday)

/-- The separator of the fields does not stand in a date. -/
theorem underscore_notMem_date (date : Date) : '_' ∉ date.text :=
  notMem_dateText (by decide) (by decide) date

/-! ## Names -/

/-- The text of a name, field after field. -/
theorem text_eq (name : ExposureName) :
    name.text = name.instrument :: '_' :: name.exposure :: '_' ::
      (name.date.text ++ '_' :: (numberText name.multiRun ++ '_' :: (numberText name.run ++ '_' ::
        (numberText name.window ++ '_' :: (numberText name.processing ++ '.' ::
          name.extension.toList))))) := by
  unfold text textDated
  simp only [List.append_assoc, List.cons_append]

/-- A name is read from its text. -/
theorem read?_text (name : ExposureName) : read? name.text = some name := by
  have hunderscore : ∀ n : UInt32, '_' ∉ numberText n := notMem_numberText (by decide)
  have hdot : ∀ n : UInt32, '.' ∉ numberText n := notMem_numberText (by decide)
  rw [text_eq, read?]
  -- each field ends at the first separator behind it, and what is left is the next field
  simp only [splitFirst_append (underscore_notMem_date name.date),
    splitFirst_append (hunderscore name.multiRun), splitFirst_append (hunderscore name.run),
    splitFirst_append (hunderscore name.window), splitFirst_append (hdot name.processing),
    Option.bind_eq_bind, Option.bind_some, Date.read?_text, readNumber?_numberText,
    String.ofList_toList, Option.pure_def]

/-- A name is read from what its file is called. -/
theorem read?_fileName (name : ExposureName) : read? name.fileName.toList = some name := by
  unfold fileName
  rw [String.toList_ofList, read?_text]

/-- No two names are called the same. -/
theorem fileName_injective : Function.Injective fileName := by
  intro name other h
  have hread := read?_fileName name
  rw [h, read?_fileName other] at hread
  exact (Option.some.inj hread).symm

/-- **What a file is called tells all its fields.**  Whatever the codes, the date, the numbers and
the extension are, the reader gives the name back; so names that are called the same are the
same. -/
theorem fileName_faithful :
    (∀ name : ExposureName, read? name.fileName.toList = some name) ∧
    ∀ name other : ExposureName, name.fileName = other.fileName → name = other :=
  ⟨read?_fileName, fun _ _ h => fileName_injective h⟩

end ExposureKit.ExposureName
