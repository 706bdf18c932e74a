import ExposureKit.Proofs.Bytes.Base64RoundTrip

/-!
# Texts and their canonical form

The last group of a text may have spare bits, which fill no byte.  In a canonical text they are
zero, and that is all in which a cleaned text and the canonical text of its value may differ:
the bytes that symbols spell spell the same symbols again, with the spare bits cleared
(`sextetsOf_bytesOf_concat`), and as many padding signs.

The main result is `decode_round_trip`.
-/

namespace ExposureKit.Base64

/-! ## Spare bits -/

/-- The value with its last `count` bits set to zero. -/
def clearBits (count : Nat) (s : Fin 64) : Fin 64 :=
  ⟨s.val / 2 ^ count * 2 ^ count, Nat.lt_of_le_of_lt (Nat.div_mul_le_self _ _) s.isLt⟩

/-- The texts are the same symbols and padding signs, except that the last `spare` bits of the last
symbol are zero in the second. -/
inductive SameButSpare (spare : Nat) : (text canonical : List UInt8) → Prop
  /-- There is no symbol, and there are no spare bits. -/
  | empty (hspare : spare = 0) : SameButSpare spare [] []
  /-- The symbols before the last are the same, and so is the padding. -/
  | symbols (front : List (Fin 64)) (last : Fin 64) (pads : Nat) :
    SameButSpare spare (front.map symbol ++ symbol last :: List.replicate pads pad)
      (front.map symbol ++ symbol (clearBits spare last) :: List.replicate pads pad)

theorem clearBits_zero (s : Fin 64) : clearBits 0 s = s := by
  simp [clearBits]

/-! ## The symbols of bytes that symbols spell -/

theorem firstSextet_firstByte (a b : Fin 64) : firstSextet (firstByte a b) = a := by
  rw [← Fin.val_inj]
  simp only [firstSextet, firstByte, lastSextet, UInt8.toNat_ofNat']
  omega

theorem secondSextet_bytes (a b c : Fin 64) :
    secondSextet (firstByte a b) (secondByte b c) = b := by
  rw [← Fin.val_inj]
  simp only [secondSextet, firstByte, secondByte, lastSextet, UInt8.toNat_ofNat']
  omega

theorem thirdSextet_bytes (b c d : Fin 64) :
    thirdSextet (secondByte b c) (thirdByte c d) = c := by
  rw [← Fin.val_inj]
  simp only [thirdSextet, secondByte, thirdByte, lastSextet, UInt8.toNat_ofNat']
  omega

theorem fourthSextet_thirdByte (c d : Fin 64) : fourthSextet (thirdByte c d) = d := by
  rw [← Fin.val_inj]
  simp only [fourthSextet, thirdByte, lastSextet, UInt8.toNat_ofNat']
  omega

theorem secondSextet_firstByte_zero (a b : Fin 64) :
    secondSextet (firstByte a b) 0 = clearBits 4 b := by
  rw [← Fin.val_inj]
  simp only [secondSextet, firstByte, clearBits, lastSextet, UInt8.toNat_ofNat', UInt8.toNat_zero]
  omega

theorem thirdSextet_secondByte_zero (b c : Fin 64) :
    thirdSextet (secondByte b c) 0 = clearBits 2 c := by
  rw [← Fin.val_inj]
  simp only [thirdSextet, secondByte, clearBits, lastSextet, UInt8.toNat_ofNat', UInt8.toNat_zero]
  omega

/-- The bytes that symbols spell spell the same symbols, but for the spare bits of the last. -/
theorem sextetsOf_bytesOf_concat (last : Fin 64) :
    ∀ front : List (Fin 64), (front.length + 1) % 4 ≠ 1 →
      sextetsOf (bytesOf (front ++ [last])) =
        front ++ [clearBits (6 * (front.length + 1) % 8) last]
  | [], h => absurd rfl h
  | [a], _ => by
    have hspare : 6 * ([a].length + 1) % 8 = 4 := by simp
    simp only [List.cons_append, List.nil_append, bytesOf, sextetsOf, firstSextet_firstByte,
      secondSextet_firstByte_zero, hspare]
  | [a, b], _ => by
    have hspare : 6 * ([a, b].length + 1) % 8 = 2 := by simp
    simp only [List.cons_append, List.nil_append, bytesOf, sextetsOf, firstSextet_firstByte,
      secondSextet_bytes, thirdSextet_secondByte_zero, hspare]
  | [a, b, c], _ => by
    have hspare : 6 * ([a, b, c].length + 1) % 8 = 0 := by simp
    simp only [List.cons_append, List.nil_append, bytesOf, sextetsOf, firstSextet_firstByte,
      secondSextet_bytes, thirdSextet_bytes, fourthSextet_thirdByte, hspare, clearBits_zero]
  | a :: b :: c :: d :: front, h => by
    have hlength : (a :: b :: c :: d :: front).length + 1 = front.length + 1 + 4 := by
      simp only [List.length_cons]
    rw [hlength] at h ⊢
    have hspare : 6 * (front.length + 1 + 4) % 8 = 6 * (front.length + 1) % 8 := by omega
    have ih := sextetsOf_bytesOf_concat last front (by omega)
    simp only [List.cons_append, bytesOf, sextetsOf, firstSextet_firstByte, secondSextet_bytes,
      thirdSextet_bytes, fourthSextet_thirdByte, ih, hspare]

theorem length_bytesOf (sextets : List (Fin 64)) :
    (bytesOf sextets).length = 6 * sextets.length / 8 := by
  rw [bytesOf_eq_wholeBytes, length_wholeBytes, length_flatMap_bits]

/-! ## Symbols and padding told apart -/

theorem filterMap_sextet?_symbols (sextets : List (Fin 64)) (pads : Nat) :
    (sextets.map symbol ++ List.replicate pads pad).filterMap sextet? = sextets := by
  have hpad : sextet? pad = none := by decide
  rw [List.filterMap_append, List.filterMap_map, List.filterMap_replicate_of_none hpad]
  simp [sextet?_symbol]

theorem count_pad_symbols (sextets : List (Fin 64)) (pads : Nat) :
    (sextets.map symbol ++ List.replicate pads pad).count pad = pads := by
  have hnone : pad ∉ sextets.map symbol := by
    intro hmem
    exact ne_pad_of_isSymbol (isSymbol_of_mem_map_symbol hmem) rfl
  rw [List.count_append, List.count_eq_zero.2 hnone, List.count_replicate_self, Nat.zero_add]

/-- A text determines its symbols and its padding. -/
theorem symbols_inj {sextets other : List (Fin 64)} {pads otherPads : Nat}
    (h : sextets.map symbol ++ List.replicate pads pad =
      other.map symbol ++ List.replicate otherPads pad) : sextets = other ∧ pads = otherPads := by
  constructor
  · rw [← filterMap_sextet?_symbols sextets pads, h, filterMap_sextet?_symbols]
  · rw [← count_pad_symbols sextets pads, h, count_pad_symbols]

theorem symbolCount_symbols (sextets : List (Fin 64)) (pads : Nat) :
    symbolCount (sextets.map symbol ++ List.replicate pads pad) = sextets.length := by
  rw [← length_filterMap_sextet?, filterMap_sextet?_symbols]

/-! ## Decoded texts -/

/-- What is decoded, in terms of the symbols and the padding that cleaning leaves. -/
theorem decode_eq_ok_iff {text data : List UInt8} : decode text = .ok data ↔
    ∃ sextets pads, clean text = sextets.map symbol ++ List.replicate pads pad ∧
      (sextets.length + pads) % 4 = 0 ∧ pads ≤ 2 ∧ bytesOf sextets = data := by
  obtain ⟨count, hclean, -, hpads⟩ := clean_eq text
  rw [decode, hclean, decodeStrict_symbols _ _ hpads]
  constructor
  · intro h
    split_ifs at h with hwhole
    · cases h
      refine ⟨symbolsRead text, count, rfl, ?_, ?_, rfl⟩ <;> omega
  · rintro ⟨sextets, pads, hsymbols, hwhole, hle, rfl⟩
    obtain ⟨rfl, rfl⟩ := symbols_inj hsymbols
    rw [if_pos (by omega)]

theorem padCount_bytesOf {sextets : List (Fin 64)} {pads : Nat}
    (hwhole : (sextets.length + pads) % 4 = 0) (hle : pads ≤ 2) :
    padCount (bytesOf sextets) = pads := by
  rw [padCount, length_bytesOf]
  obtain rfl | rfl | rfl : pads = 0 ∨ pads = 1 ∨ pads = 2 := by omega
  all_goals omega

/-- Symbols and the padding that makes their last group whole are the canonical text of the bytes
that they spell, but for spare bits. -/
theorem sameButSpare_bytesOf {sextets : List (Fin 64)} {pads : Nat}
    (hwhole : (sextets.length + pads) % 4 = 0) (hle : pads ≤ 2) :
    SameButSpare (6 * sextets.length - 8 * (bytesOf sextets).length)
      (sextets.map symbol ++ List.replicate pads pad) (encode (bytesOf sextets)) := by
  rw [length_bytesOf, encode_eq, padCount_bytesOf hwhole hle]
  rcases List.eq_nil_or_concat sextets with rfl | ⟨front, last, rfl⟩
  · obtain rfl : pads = 0 := by
      rw [List.length_nil] at hwhole
      omega
    exact .empty rfl
  · rw [List.concat_eq_append] at hwhole ⊢
    have hlength : (front ++ [last]).length = front.length + 1 := by simp
    have hspare : 6 * (front.length + 1) - 8 * (6 * (front.length + 1) / 8) =
        6 * (front.length + 1) % 8 := by omega
    rw [hlength] at hwhole
    rw [sextetsOf_bytesOf_concat last front (by omega), hlength, hspare, List.map_append,
      List.map_append, List.append_assoc, List.append_assoc]
    exact .symbols front last pads

/-- What differs from a canonical text in spare bits only spells the same bytes. -/
theorem exists_symbols_of_sameButSpare {text canonical data : List UInt8} {spare : Nat}
    (h : SameButSpare spare text canonical) (hcanonical : encode data = canonical)
    (hspare : spare = 6 * symbolCount text - 8 * data.length) :
    ∃ sextets pads, text = sextets.map symbol ++ List.replicate pads pad ∧
      (sextets.length + pads) % 4 = 0 ∧ pads ≤ 2 ∧ bytesOf sextets = data := by
  have hmod := length_sextetsOf_mod data
  have hdata := congrArg List.length (bytesOf_sextetsOf data)
  rw [length_bytesOf] at hdata
  rw [encode_eq] at hcanonical
  cases h with
  | empty =>
    have hnil : sextetsOf data = [] :=
      List.map_eq_nil_iff.1 (List.append_eq_nil_iff.1 hcanonical).1
    exact ⟨[], 0, rfl, rfl, by omega, by rw [← bytesOf_sextetsOf data, hnil]⟩
  | symbols front last pads =>
    have hconcat : ∀ s, front.map symbol ++ symbol s :: List.replicate pads pad =
        (front ++ [s]).map symbol ++ List.replicate pads pad := by simp
    have hlength : ∀ s : Fin 64, (front ++ [s]).length = front.length + 1 := by simp
    rw [hconcat, symbolCount_symbols, hlength] at hspare
    rw [hconcat] at hcanonical
    obtain ⟨hsextets, hpads⟩ := symbols_inj hcanonical
    rw [hsextets, hlength] at hmod hdata
    have hone : (front.length + 1) % 4 ≠ 1 := by split_ifs at hmod <;> omega
    refine ⟨front ++ [last], pads, hconcat last, ?_, ?_, ?_⟩
    · rw [hlength, ← hpads, padCount]
      split_ifs at hmod <;> omega
    · rw [← hpads, padCount]
      omega
    · have hbytes := sextetsOf_bytesOf_concat last front hone
      rw [show 6 * (front.length + 1) % 8 = spare by omega, ← hsextets] at hbytes
      rw [← bytesOf_sextetsOf (bytesOf _), hbytes, bytesOf_sextetsOf]

theorem length_mod_ne_zero_of_pad {data : List UInt8} (h : (encode data).getLast? = some pad) :
    data.length % 3 ≠ 0 := by
  intro hwhole
  have hpads : padCount data = 0 := by rw [padCount, hwhole]
  rw [encode_eq, hpads, List.replicate_zero, List.append_nil] at h
  exact ne_pad_of_isSymbol (isSymbol_of_mem_map_symbol (List.mem_of_getLast? h)) rfl

/-- **Decoding undoes encoding, and encoding decoding.**  A text that is canonical up to noise is
decoded to the bytes that it was made of, with anything behind it if it ends in padding.  And the
texts that are decoded to some bytes are those which cleaning makes their canonical text, except
that the bits of the last symbol that fill no byte need not be zero. -/
theorem decode_round_trip :
    (∀ data text, text.filter isSignificant = encode data → decode text = .ok data ∧
      ((encode data).getLast? = some pad → ∀ more, decode (text ++ more) = .ok data)) ∧
    ∀ data text, decode text = .ok data ↔
      SameButSpare (6 * symbolCount (clean text) - 8 * data.length) (clean text)
        (encode data) := by
  constructor
  · intro data text htext
    constructor
    · rw [← List.append_nil text]
      exact decode_append_of_filter_eq_encode htext (.inr (by simp))
    · intro hpad more
      exact decode_append_of_filter_eq_encode htext (.inl (length_mod_ne_zero_of_pad hpad))
  · intro data text
    rw [decode_eq_ok_iff]
    constructor
    · rintro ⟨sextets, pads, hclean, hwhole, hle, rfl⟩
      rw [hclean, symbolCount_symbols]
      exact sameButSpare_bytesOf hwhole hle
    · intro h
      exact exists_symbols_of_sameButSpare h rfl rfl

/-- The letters `hi`: noise between the symbols and more behind the padding, and spare bits that are
not zero. -/
theorem decode_round_trip_letters :
    [0x61, 0x47, 0x0A, 0x6B, 0x3D].filter isSignificant = encode [0x68, 0x69] ∧
      (encode [0x68, 0x69]).getLast? = some pad ∧
      decode ([0x61, 0x47, 0x0A, 0x6B, 0x3D] ++ [0x21, 0x41]) = .ok [0x68, 0x69] ∧
      clean [0x61, 0x47, 0x6C, 0x3D] = [0x61, 0x47, 0x6C, 0x3D] ∧
      decode [0x61, 0x47, 0x6C, 0x3D] = .ok [0x68, 0x69] ∧
      SameButSpare 2 [0x61, 0x47, 0x6C, 0x3D] (encode [0x68, 0x69]) := by
  obtain ⟨hencoded, hdecoded⟩ := decode_round_trip
  have htext : [0x61, 0x47, 0x0A, 0x6B, 0x3D].filter isSignificant = encode [0x68, 0x69] := by
    decide
  have hpad : (encode [0x68, 0x69]).getLast? = some pad := by decide
  have hsame : decode [0x61, 0x47, 0x6C, 0x3D] = .ok [0x68, 0x69] := by decide
  exact ⟨htext, hpad, (hencoded _ _ htext).2 hpad _, by decide, hsame, (hdecoded _ _).1 hsame⟩

end ExposureKit.Base64
