import Mathlib.Logic.Function.Basic
import Mathlib.Tactic.SplitIfs
import ExposureKit.Bytes.Literal

/-!
# Byte-string literals read back

The quote of a literal is chosen by looking at all of its bytes, while each byte is written
by itself.  `Written` says how, between quotes of either kind, and what holds of one byte is
carried over to a body by induction on its bytes.

* `Written.readBody`, `readBody_body`: reading takes off what was written, and nothing more.
* `Written.isPlain`, `isPlain_of_mem_ofBytes`: only printable ASCII is written.
* `Written.escapesQuote`, `escapesQuote_ofBytes`: no quote is escaped but the one that
  delimits the literal.
* `ofBytes_faithful`: the main result.
-/

namespace ExposureKit.Literal

variable {quote b : UInt8} {text : List Char}

/-! ## Characters of bytes -/

theorem toNat_charOf (b : UInt8) : (charOf b).toNat = b.toNat := by
  have hb := b.toNat_lt
  have hvalid : b.toNat.isValidChar := by
    unfold Nat.isValidChar
    omega
  rw [charOf, ← Char.toNat_val, Char.ofNat, dif_pos hvalid]
  rfl

theorem ofNat_toNat_charOf (b : UInt8) : UInt8.ofNat (charOf b).toNat = b := by
  rw [toNat_charOf, UInt8.ofNat_toNat]

theorem charOf_inj {a b : UInt8} : charOf a = charOf b ↔ a = b := by
  rw [← Char.toNat_inj, toNat_charOf, toNat_charOf, UInt8.toNat_inj]

theorem charOf_ne_backslash (hb : b ≠ 0x5C) : charOf b ≠ '\\' := by
  have hbackslash : charOf 0x5C = '\\' := by decide
  rw [← hbackslash]
  exact charOf_inj.not.2 hb

/-- A character that may stand in a literal. -/
def IsPlain (c : Char) : Prop := ' ' ≤ c ∧ c ≤ '~'

theorem isPlain_charOf : IsPlain (charOf b) ↔ isPrintable b = true := by
  have hle : ∀ {c d : Char}, c ≤ d ↔ c.toNat ≤ d.toNat := by
    intro c d
    rw [Char.le_def, UInt32.le_iff_toNat_le, Char.toNat_val, Char.toNat_val]
  simp [IsPlain, isPrintable, hle, toNat_charOf, UInt8.le_iff_toNat_le]

/-! ## The quote -/

/-- A quote that may delimit a literal. -/
def IsQuote (quote : UInt8) : Prop := quote = singleQuote ∨ quote = doubleQuote

theorem IsQuote.charOf_eq (h : IsQuote quote) : charOf quote = '\'' ∨ charOf quote = '"' := by
  rcases h with rfl | rfl
  · left
    decide
  · right
    decide

theorem IsQuote.charOf_ne_backslash (h : IsQuote quote) : charOf quote ≠ '\\' := by
  rcases h with rfl | rfl <;> decide

theorem isQuote_delimiter (bytes : List UInt8) : IsQuote (delimiter bytes) := by
  unfold delimiter
  split
  · exact .inr rfl
  · exact .inl rfl

theorem delimiter_eq_doubleQuote_iff {bytes : List UInt8} :
    delimiter bytes = doubleQuote ↔ singleQuote ∈ bytes ∧ doubleQuote ∉ bytes := by
  unfold delimiter
  split
  · next h => simpa using h
  · next h => simpa [singleQuote, doubleQuote] using h

/-- The delimiter stands among the bytes only if no quote could be chosen that does not. -/
theorem delimiter_mem_iff {bytes : List UInt8} :
    delimiter bytes ∈ bytes ↔ singleQuote ∈ bytes ∧ doubleQuote ∈ bytes := by
  unfold delimiter
  by_cases hsingle : singleQuote ∈ bytes <;> by_cases hdouble : doubleQuote ∈ bytes <;>
    simp [hsingle, hdouble]

/-! ## One byte -/

/-- The bytes that have an escape of their own, and the letters of it. -/
def letters : List (UInt8 × Char) := [(0x5C, '\\'), (0x09, 't'), (0x0A, 'n'), (0x0D, 'r')]

/-- How a byte is written between the delimiters `quote`. -/
inductive Written (quote : UInt8) : (b : UInt8) → (text : List Char) → Prop
  /-- By a letter. -/
  | letter {b : UInt8} {c : Char} (hletter : (b, c) ∈ letters) : Written quote b ['\\', c]
  /-- The delimiter itself is escaped. -/
  | delimiter : Written quote quote ['\\', charOf quote]
  /-- Any other printable character stands for itself. -/
  | plain {b : UInt8} (hbackslash : b ≠ 0x5C) (hquote : b ≠ quote)
      (hprintable : isPrintable b = true) : Written quote b [charOf b]
  /-- By two hexadecimal digits. -/
  | hex {b : UInt8} (hprintable : isPrintable b = false) :
      Written quote b
        ['\\', 'x', Hex.lowerDigit (b.toNat / 16), Hex.lowerDigit (b.toNat % 16)]

theorem written_escape (quote b : UInt8) : Written quote b (escape quote b) := by
  unfold escape
  split_ifs with hbackslash htab hline hreturn hquote hprintable
  · exact .letter (by simp [hbackslash, letters])
  · exact .letter (by simp [htab, letters])
  · exact .letter (by simp [hline, letters])
  · exact .letter (by simp [hreturn, letters])
  · rw [hquote]
    exact .delimiter
  · exact .plain hbackslash hquote hprintable
  · rw [Hex.lowerByte_eq]
    exact .hex (Bool.not_eq_true _ ▸ hprintable)

/-! ## Reading back -/

/-- A byte that has been read stands in front of the bytes that follow. -/
theorem bind_cons (b : UInt8) (read : Option (List UInt8 × List Char)) :
    (read.bind fun (bytes, after) => some (b :: bytes, after)) =
      read.map (Prod.map (b :: ·) id) := by
  cases read <;> rfl

/-- A letter behind a backslash stands for its byte. -/
theorem readBody_letter {c : Char} (hletter : (b, c) ∈ letters) (quote : Char)
    (rest : List Char) : readBody quote ('\\' :: c :: rest) =
      (readBody quote rest).map (Prod.map (b :: ·) id) := by
  simp only [letters, List.mem_cons, Prod.mk.injEq, List.not_mem_nil, or_false] at hletter
  rcases hletter with ⟨rfl, rfl⟩ | ⟨rfl, rfl⟩ | ⟨rfl, rfl⟩ | ⟨rfl, rfl⟩ <;>
    rw [readBody] <;> exact bind_cons _ _

/-- A quote behind a backslash stands for itself. -/
theorem readBody_quote (hquote : IsQuote b) (quote : Char) (rest : List Char) :
    readBody quote ('\\' :: charOf b :: rest) =
      (readBody quote rest).map (Prod.map (b :: ·) id) := by
  have hsingle : charOf singleQuote = '\'' := by decide
  have hdouble : charOf doubleQuote = '"' := by decide
  rcases hquote with rfl | rfl
  · rw [hsingle, readBody]
    exact bind_cons _ _
  · rw [hdouble, readBody]
    exact bind_cons _ _

/-- A byte is read from its two digits. -/
theorem readBody_hex (b : UInt8) (quote : Char) (rest : List Char) :
    readBody quote ('\\' :: 'x' :: Hex.lowerDigit (b.toNat / 16) ::
      Hex.lowerDigit (b.toNat % 16) :: rest) =
      (readBody quote rest).map (Prod.map (b :: ·) id) := by
  rw [readBody, Hex.byte?_lowerDigit]
  exact bind_cons _ _

/-- What is no backslash closes the body or stands for itself. -/
theorem readBody_cons {c : Char} (hc : c ≠ '\\') (quote : Char) (rest : List Char) :
    readBody quote (c :: rest) = if c = quote then some ([], rest)
      else if ' ' ≤ c ∧ c ≤ '~' then
        (readBody quote rest).map (Prod.map (UInt8.ofNat c.toNat :: ·) id)
      else none := by
  rw [readBody, ← bind_cons]
  · rfl
  · intro hbackslash
    exact absurd hbackslash hc
  · intro high low after hbackslash
    exact absurd hbackslash hc
  · intro d after hbackslash
    exact absurd hbackslash hc

/-- Reading takes off what was written for one byte. -/
theorem Written.readBody (h : Written quote b text) (hquote : IsQuote quote) (rest : List Char) :
    readBody (charOf quote) (text ++ rest) =
      (readBody (charOf quote) rest).map (Prod.map (b :: ·) id) := by
  cases h with
  | letter hletter => exact readBody_letter hletter _ rest
  | delimiter => exact readBody_quote hquote _ rest
  | plain hbackslash hne hprintable =>
    have hplain : ' ' ≤ charOf b ∧ charOf b ≤ '~' := isPlain_charOf.2 hprintable
    have hchar : charOf b ≠ '\\' := charOf_ne_backslash hbackslash
    rw [List.singleton_append, readBody_cons hchar, if_neg (charOf_inj.not.2 hne), if_pos hplain,
      ofNat_toNat_charOf]
  | hex => exact readBody_hex b _ rest

/-- Reading takes off a whole body and its closing quote, and nothing behind them. -/
theorem readBody_body (hquote : IsQuote quote) (bytes : List UInt8) (rest : List Char) :
    readBody (charOf quote) (bytes.flatMap (escape quote) ++ charOf quote :: rest) =
      some (bytes, rest) := by
  induction bytes with
  | nil =>
    rw [List.flatMap_nil, List.nil_append, readBody_cons hquote.charOf_ne_backslash, if_pos rfl]
  | cons b bytes ih =>
    rw [List.flatMap_cons, List.append_assoc, (written_escape quote b).readBody hquote, ih]
    rfl

theorem read?_ofBytes (bytes : List UInt8) (rest : List Char) :
    read? (ofBytes bytes ++ rest) = some (bytes, rest) := by
  have hquote : IsQuote (delimiter bytes) := isQuote_delimiter bytes
  have hchar : charOf (delimiter bytes) = '\'' ∨ charOf (delimiter bytes) = '"' := hquote.charOf_eq
  unfold ofBytes
  rw [List.cons_append, List.cons_append, List.append_assoc, List.singleton_append, read?,
    if_pos hchar, readBody_body hquote]

theorem ofBytes_injective : Function.Injective ofBytes := by
  intro bytes other h
  have hread := read?_ofBytes bytes []
  rw [h, read?_ofBytes other []] at hread
  exact (congrArg Prod.fst (Option.some.inj hread)).symm

/-! ## Only printable characters -/

theorem isPlain_lowerDigit {n : Nat} (hn : n < 16) : IsPlain (Hex.lowerDigit n) := by
  have hdigits : ∀ n < 16, ' ' ≤ Hex.lowerDigit n ∧ Hex.lowerDigit n ≤ '~' := by decide
  exact hdigits n hn

theorem IsQuote.isPlain (h : IsQuote quote) : IsPlain (charOf quote) := by
  rw [isPlain_charOf]
  rcases h with rfl | rfl <;> decide

theorem isPlain_of_mem_letters {c : Char} (hletter : (b, c) ∈ letters) : IsPlain c := by
  have hletters : ∀ entry ∈ letters, ' ' ≤ entry.2 ∧ entry.2 ≤ '~' := by decide
  exact hletters (b, c) hletter

theorem Written.isPlain (h : Written quote b text) (hquote : IsQuote quote) :
    ∀ c ∈ text, IsPlain c := by
  have hbackslash : IsPlain '\\' := by
    unfold IsPlain
    decide
  have hx : IsPlain 'x' := by
    unfold IsPlain
    decide
  have hb := b.toNat_lt
  cases h with
  | letter hletter => simp [hbackslash, isPlain_of_mem_letters hletter]
  | delimiter => simp [hbackslash, hquote.isPlain]
  | plain _ _ hprintable => simpa using isPlain_charOf.2 hprintable
  | hex =>
    have hhigh : IsPlain (Hex.lowerDigit (b.toNat / 16)) := isPlain_lowerDigit (by omega)
    have hlow : IsPlain (Hex.lowerDigit (b.toNat % 16)) := isPlain_lowerDigit (by omega)
    simp [hbackslash, hx, hhigh, hlow]

theorem isPlain_of_mem_ofBytes (bytes : List UInt8) : ∀ c ∈ ofBytes bytes, IsPlain c := by
  have hquote : IsQuote (delimiter bytes) := isQuote_delimiter bytes
  intro c hc
  unfold ofBytes at hc
  simp only [List.mem_cons, List.mem_append, List.mem_flatMap, List.not_mem_nil, or_false] at hc
  rcases hc with rfl | rfl | ⟨b, -, hc⟩ | rfl
  · unfold IsPlain
    decide
  · exact hquote.isPlain
  · exact (written_escape _ b).isPlain hquote c hc
  · exact hquote.isPlain

/-! ## Escaped quotes -/

/-- Whether a quote of either kind stands escaped, for a reader from the left. -/
def escapesQuote : List Char → Bool
  | '\\' :: c :: rest => c == '\'' || c == '"' || escapesQuote rest
  | _ :: rest => escapesQuote rest
  | [] => false

theorem escapesQuote_cons {c : Char} (hc : c ≠ '\\') (rest : List Char) :
    escapesQuote (c :: rest) = escapesQuote rest := by
  rw [escapesQuote]
  intro d after hbackslash
  exact absurd hbackslash hc

theorem IsQuote.ne_of_mem_letters (h : IsQuote quote) {c : Char} (hletter : (b, c) ∈ letters) :
    b ≠ quote ∧ c ≠ '\'' ∧ c ≠ '"' := by
  have hletters : ∀ entry ∈ letters, (entry.1 ≠ singleQuote ∧ entry.1 ≠ doubleQuote) ∧
      entry.2 ≠ '\'' ∧ entry.2 ≠ '"' := by decide
  obtain ⟨⟨hsingle, hdouble⟩, hc⟩ := hletters (b, c) hletter
  refine ⟨?_, hc⟩
  rcases h with rfl | rfl
  · exact hsingle
  · exact hdouble

/-- Only the delimiter is an escaped quote. -/
theorem Written.escapesQuote (h : Written quote b text) (hquote : IsQuote quote)
    (rest : List Char) : escapesQuote (text ++ rest) = (b == quote || escapesQuote rest) := by
  cases h with
  | @letter b c hletter =>
    obtain ⟨hne, hsingle, hdouble⟩ := hquote.ne_of_mem_letters hletter
    simp [Literal.escapesQuote, beq_false_of_ne hne, beq_false_of_ne hsingle,
      beq_false_of_ne hdouble]
  | delimiter =>
    rcases hquote.charOf_eq with hchar | hchar <;> simp [Literal.escapesQuote, hchar]
  | plain hbackslash hne =>
    rw [List.singleton_append, escapesQuote_cons (charOf_ne_backslash hbackslash)]
    simp [hne]
  | hex hprintable =>
    have hne : b ≠ quote := by
      rintro rfl
      have hquoted := isPlain_charOf.1 hquote.isPlain
      rw [hprintable] at hquoted
      cases hquoted
    have hdigit : ∀ n < 16, Hex.lowerDigit n ≠ '\\' := by decide
    have hb := b.toNat_lt
    have hhigh : Hex.lowerDigit (b.toNat / 16) ≠ '\\' := hdigit _ (by omega)
    have hlow : Hex.lowerDigit (b.toNat % 16) ≠ '\\' := hdigit _ (by omega)
    simp [Literal.escapesQuote, escapesQuote_cons hhigh, escapesQuote_cons hlow, hne]

theorem escapesQuote_body (hquote : IsQuote quote) (bytes : List UInt8) (rest : List Char) :
    escapesQuote (bytes.flatMap (escape quote) ++ rest) =
      (decide (quote ∈ bytes) || escapesQuote rest) := by
  induction bytes with
  | nil => simp
  | cons b bytes ih =>
    rw [List.flatMap_cons, List.append_assoc, (written_escape quote b).escapesQuote hquote, ih]
    by_cases hb : b = quote
    · simp [hb]
    · simp [hb, Ne.symm hb]

theorem escapesQuote_ofBytes (bytes : List UInt8) :
    escapesQuote (ofBytes bytes) = true ↔ singleQuote ∈ bytes ∧ doubleQuote ∈ bytes := by
  have hquote : IsQuote (delimiter bytes) := isQuote_delimiter bytes
  have hchar : charOf (delimiter bytes) ≠ '\\' := hquote.charOf_ne_backslash
  unfold ofBytes
  rw [escapesQuote_cons (by decide), escapesQuote_cons hchar, escapesQuote_body hquote,
    escapesQuote_cons hchar, ← delimiter_mem_iff]
  simp [escapesQuote]

/-! ## The literal -/

/-- **A literal is faithful and ends itself.**  It is printable ASCII between two equal
quotes; a reader from the left closes it at its last character, whatever follows, and has its
bytes then, so that no two byte strings have one literal.  The quote is the double one where
the bytes hold a single quote and no double quote, and quotes are escaped only where the bytes
hold both kinds. -/
theorem ofBytes_faithful :
    Function.Injective ofBytes ∧
    ∀ bytes : List UInt8,
      (∀ c ∈ ofBytes bytes, ' ' ≤ c ∧ c ≤ '~') ∧
      (∃ quote body, (quote = '\'' ∨ quote = '"') ∧
        ofBytes bytes = 'b' :: quote :: (body ++ [quote]) ∧
        (∀ rest, readBody quote (body ++ quote :: rest) = some (bytes, rest)) ∧
        (quote = '"' ↔ singleQuote ∈ bytes ∧ doubleQuote ∉ bytes)) ∧
      (escapesQuote (ofBytes bytes) = true ↔ singleQuote ∈ bytes ∧ doubleQuote ∈ bytes) := by
  refine ⟨ofBytes_injective, fun bytes => ⟨isPlain_of_mem_ofBytes bytes, ?_,
    escapesQuote_ofBytes bytes⟩⟩
  have hquote : IsQuote (delimiter bytes) := isQuote_delimiter bytes
  refine ⟨charOf (delimiter bytes), bytes.flatMap (escape (delimiter bytes)), hquote.charOf_eq,
    rfl, readBody_body hquote bytes, ?_⟩
  have hdouble : charOf doubleQuote = '"' := by decide
  rw [← hdouble, charOf_inj, delimiter_eq_doubleQuote_iff]

end ExposureKit.Literal
