import ExposureKit.Proofs.Bytes.Base64Decoding

/-!
# Canonical texts read back

The canonical text of a byte string is symbols and then the padding that its last group
needs (`encode_eq`), and the bits of those symbols are the bits of the bytes
(`bytesOf_sextetsOf`).  So the text is read back to the bytes that it was made of, and
that is still so when noise stands in it and something comes after it: padding closes the
last group and ends the text, and without padding it is enough that no symbol follows
(`decode_append_of_filter_eq_encode`).
-/

namespace ExposureKit.Base64

/-! ## The symbols of a canonical text -/

/-- The last six bits of a number. -/
def lastSextet (n : Nat) : Fin 64 := ⟨n % 64, Nat.mod_lt n (by decide)⟩

/-- The first six bits of three bytes. -/
def firstSextet (x : UInt8) : Fin 64 := lastSextet (x.toNat / 4)

/-- The second six bits of three bytes. -/
def secondSextet (x y : UInt8) : Fin 64 := lastSextet (16 * (x.toNat % 4) + y.toNat / 16)

/-- The third six bits of three bytes. -/
def thirdSextet (y z : UInt8) : Fin 64 := lastSextet (4 * (y.toNat % 16) + z.toNat / 64)

/-- The last six bits of three bytes. -/
def fourthSextet (z : UInt8) : Fin 64 := lastSextet (z.toNat % 64)

/-- The bits of a byte string in groups of six, the last of them filled up with zeros. -/
def sextetsOf : List UInt8 → List (Fin 64)
  | x :: y :: z :: rest =>
    firstSextet x :: secondSextet x y :: thirdSextet y z :: fourthSextet z :: sextetsOf rest
  | [x, y] => [firstSextet x, secondSextet x y, thirdSextet y 0]
  | [x] => [firstSextet x, secondSextet x 0]
  | [] => []

/-- The padding signs that the text of a byte string ends in. -/
def padCount (data : List UInt8) : Nat := (3 - data.length % 3) % 3

theorem length_cons_cons_cons_mod (x y z : UInt8) (data : List UInt8) :
    (x :: y :: z :: data).length % 3 = data.length % 3 :=
  Nat.add_mod_right data.length 3

theorem padCount_cons_cons_cons (x y z : UInt8) (data : List UInt8) :
    padCount (x :: y :: z :: data) = padCount data := by
  rw [padCount, length_cons_cons_cons_mod, padCount]

theorem padCount_ne_zero {data : List UInt8} (h : data.length % 3 ≠ 0) : padCount data ≠ 0 := by
  rw [padCount]
  omega

/-- One or two bytes are left over for the last group, and take a symbol more. -/
theorem length_sextetsOf_mod (data : List UInt8) :
    (sextetsOf data).length % 4 = if data.length % 3 = 0 then 0 else data.length % 3 + 1 := by
  fun_induction sextetsOf data with
  | case1 x y z rest ih =>
    rw [length_cons_cons_cons_mod, ← ih]
    exact Nat.add_mod_right (sextetsOf rest).length 4
  | case2 | case3 | case4 => rfl

/-- A canonical text is symbols and then padding. -/
theorem encode_eq (data : List UInt8) :
    encode data = (sextetsOf data).map symbol ++ List.replicate (padCount data) pad := by
  fun_induction sextetsOf data with
  | case1 x y z rest ih =>
    rw [encode, ih, padCount_cons_cons_cons]
    rfl
  | case2 | case3 | case4 => rfl

/-! ## The bits of a canonical text -/

theorem firstByte_sextet (x y : UInt8) : firstByte (firstSextet x) (secondSextet x y) = x := by
  have hx := x.toNat_lt
  have hy := y.toNat_lt
  rw [← UInt8.toNat_inj]
  simp only [firstByte, firstSextet, secondSextet, lastSextet, UInt8.toNat_ofNat']
  omega

theorem secondByte_sextet (x y z : UInt8) :
    secondByte (secondSextet x y) (thirdSextet y z) = y := by
  have hy := y.toNat_lt
  have hz := z.toNat_lt
  rw [← UInt8.toNat_inj]
  simp only [secondByte, secondSextet, thirdSextet, lastSextet, UInt8.toNat_ofNat']
  omega

theorem thirdByte_sextet (y z : UInt8) : thirdByte (thirdSextet y z) (fourthSextet z) = z := by
  have hz := z.toNat_lt
  rw [← UInt8.toNat_inj]
  simp only [thirdByte, thirdSextet, fourthSextet, lastSextet, UInt8.toNat_ofNat']
  omega

theorem bytesOf_sextetsOf (data : List UInt8) : bytesOf (sextetsOf data) = data := by
  fun_induction sextetsOf data with
  | case1 x y z rest ih =>
    rw [bytesOf, ih, firstByte_sextet, secondByte_sextet, thirdByte_sextet]
  | case2 x y => rw [bytesOf, firstByte_sextet, secondByte_sextet]
  | case3 x => rw [bytesOf, firstByte_sextet]
  | case4 => rfl

/-- A canonical text has the value that it was made of. -/
theorem decodeStrict_encode (data : List UInt8) : decodeStrict lenient (encode data) = .ok data := by
  rw [encode_eq, decodeStrict_symbols, bytesOf_sextetsOf, if_pos]
  · rw [length_sextetsOf_mod, padCount]
    split <;> omega
  · rw [length_sextetsOf_mod, padCount]
    split <;> omega

/-! ## Cleaning a canonical text and what comes after it -/

theorem not_isClosing_map_symbol (sextets : List (Fin 64)) (position : Nat) :
    ¬IsClosing (sextets.map symbol) position := by
  rintro ⟨hget, -⟩
  exact ne_pad_of_isSymbol (isSymbol_of_mem_map_symbol (List.mem_of_getElem? hget)) rfl

theorem phaseAfter_map_symbol (sextets : List (Fin 64)) :
    phaseAfter (sextets.map symbol) = sextets.length % 4 := by
  have hcount : symbolCount (sextets.map symbol) = sextets.length := by
    rw [symbolCount, List.countP_eq_length.2 fun b hb => isSymbol_of_mem_map_symbol hb,
      List.length_map]
  rw [phaseAfter, hcount]

theorem padsAfter_map_symbol (sextets : List (Fin 64)) : padsAfter (sextets.map symbol) = 0 := by
  have hnone : pad ∉ sinceSymbol (sextets.map symbol) := by
    intro hmem
    have hpad := List.mem_reverse.1 (List.takeWhile_subset _ hmem)
    exact ne_pad_of_isSymbol (isSymbol_of_mem_map_symbol hpad) rfl
  rw [padsAfter, List.count_eq_zero.2 hnone]
  exact ite_self 0

/-- Symbols at the front of a text are kept. -/
theorem clean_map_symbol_append (sextets : List (Fin 64)) (rest : List UInt8) :
    clean (sextets.map symbol ++ rest) =
      sextets.map symbol ++ cleanFrom (sextets.length % 4) 0 rest := by
  have hsymbols : (sextets.map symbol).filter isSymbol = sextets.map symbol :=
    List.filter_eq_self.2 fun b hb => isSymbol_of_mem_map_symbol hb
  rw [clean_append (not_isClosing_map_symbol sextets), phaseAfter_map_symbol,
    padsAfter_map_symbol, hsymbols]

/-- Whatever comes after the padding that closes a group is dropped. -/
theorem cleanFrom_closing {phase pads count : Nat} (hphase : 2 ≤ phase) (hcount : count ≠ 0)
    (hfour : phase + pads + count = 4) (rest : List UInt8) :
    cleanFrom phase pads (List.replicate count pad ++ rest) =
      List.replicate (pads + count) pad := by
  induction count generalizing pads with
  | zero => exact (hcount rfl).elim
  | succ count ih =>
    rw [List.replicate_succ, List.cons_append, cleanFrom, if_pos rfl, if_pos hphase]
    by_cases hlast : count = 0
    · subst hlast
      rw [if_pos (by omega)]
    · rw [if_neg (by omega), ih hlast (by omega), Nat.add_assoc, Nat.add_comm 1]

/-- Between groups only symbols count. -/
theorem cleanFrom_eq_nil {text : List UInt8} (h : ∀ b ∈ text, isSymbol b = false) :
    cleanFrom 0 0 text = [] := by
  induction text with
  | nil => rfl
  | cons b text ih =>
    obtain ⟨hb, htext⟩ := List.forall_mem_cons.1 h
    rw [cleanFrom, ih htext, hb]
    simp

/-- Cleaning drops what comes after a canonical text that ends in padding, and anything
but symbols after one that does not. -/
theorem clean_encode_append {data rest : List UInt8}
    (h : data.length % 3 ≠ 0 ∨ ∀ b ∈ rest, isSymbol b = false) :
    clean (encode data ++ rest) = encode data := by
  rw [encode_eq, List.append_assoc, clean_map_symbol_append, length_sextetsOf_mod]
  congr 1
  by_cases hwhole : data.length % 3 = 0
  · have hpads : padCount data = 0 := by rw [padCount, hwhole]
    rw [if_pos hwhole, hpads]
    exact cleanFrom_eq_nil (h.resolve_left (not_not_intro hwhole))
  · rw [if_neg hwhole, cleanFrom_closing (by omega) (padCount_ne_zero hwhole)
      (by rw [padCount]; omega), Nat.zero_add]

/-- A text that is canonical up to noise is read back, whatever comes after its padding,
or without padding if no symbol comes after it. -/
theorem decode_append_of_filter_eq_encode {data text rest : List UInt8}
    (htext : text.filter isSignificant = encode data)
    (hrest : data.length % 3 ≠ 0 ∨ ∀ b ∈ rest, isSymbol b = false) :
    decode (text ++ rest) = .ok data := by
  have hclean : clean (text ++ rest) = encode data := by
    rw [← clean_filter_isSignificant, List.filter_append, htext]
    apply clean_encode_append
    rcases hrest with hpadding | hnone
    · exact .inl hpadding
    · right
      intro b hb
      exact hnone b (List.mem_filter.1 hb).1
  rw [decode, hclean, decodeStrict_encode]

end ExposureKit.Base64
