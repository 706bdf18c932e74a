import Mathlib
import ExposureKit.Proofs.Bytes.Base64Cleaning

/-!
# The value of a text

What `decode` makes of any text.  The strict decoder is run on what cleaning leaves, which
is symbols and then padding or none, and there it can fail only over the number of the
symbols (`decodeStrict_symbols`).  Its value is the one that the bits of the symbols spell
(`bytesOf_eq_wholeBytes`).

The main result, `decode_exact`, puts this together with what cleaning leaves.
-/

namespace ExposureKit.Base64

/-! ## Symbols and their six bits -/

theorem symbol_of_sextet? {b : UInt8} {s : Fin 64} (h : sextet? b = some s) : symbol s = b := by
  have hall : ∀ n < 256, (sextet? (UInt8.ofNat n)).all (symbol · == UInt8.ofNat n) = true := by
    decide +kernel
  have hb := hall b.toNat b.toNat_lt
  rw [UInt8.ofNat_toNat, h] at hb
  simpa using hb

theorem isSymbol_of_mem_map_symbol {sextets : List (Fin 64)} {b : UInt8}
    (hb : b ∈ sextets.map symbol) : isSymbol b = true := by
  obtain ⟨s, -, rfl⟩ := List.mem_map.1 hb
  exact isSymbol_symbol s

/-- The symbols of a text are the symbols of their six-bit values. -/
theorem filter_isSymbol (text : List UInt8) :
    text.filter isSymbol = (text.filterMap sextet?).map symbol := by
  induction text with
  | nil => rfl
  | cons b text ih =>
    cases hb : sextet? b with
    | none => simp [isSymbol, hb, ih]
    | some s => simp [isSymbol, hb, ih, symbol_of_sextet? hb]

theorem length_filterMap_sextet? (text : List UInt8) :
    (text.filterMap sextet?).length = symbolCount text := by
  have h := congrArg List.length (filter_isSymbol text)
  rw [List.length_map] at h
  rw [← h, symbolCount, List.countP_eq_length_filter]

/-! ## The strict decoder on symbols and padding -/

theorem sextetsFrom_map_symbol (offset : Nat) (sextets : List (Fin 64)) :
    sextetsFrom offset (sextets.map symbol) = .ok sextets := by
  induction sextets generalizing offset with
  | nil => rfl
  | cons s sextets ih =>
    rw [List.map_cons, sextetsFrom, sextet?_symbol, ih]
    rfl

theorem lastGroupFrom_pads (start : Nat) (done : List (Fin 64)) (pads count : Nat)
    (h : count = 0 ∨ 2 ≤ done.length + pads) :
    lastGroupFrom start done pads (List.replicate count pad) =
      .ok ⟨done.reverse, pads + count⟩ := by
  induction count generalizing pads with
  | zero => rfl
  | succ count ih =>
    rw [List.replicate_succ, lastGroupFrom, if_pos rfl, if_neg (by omega), ih (pads + 1) (by omega),
      Nat.add_assoc, Nat.add_comm 1]

/-- A group of symbols is read up to its padding, which comes after two of them. -/
theorem lastGroupFrom_map_symbol (start : Nat) (done sextets : List (Fin 64)) (count : Nat)
    (h : count = 0 ∨ 2 ≤ done.length + sextets.length) :
    lastGroupFrom start done 0 (sextets.map symbol ++ List.replicate count pad) =
      .ok ⟨done.reverse ++ sextets, count⟩ := by
  induction sextets generalizing done with
  | nil =>
    rw [List.map_nil, List.nil_append, lastGroupFrom_pads start done 0 count h]
    simp
  | cons s sextets ih =>
    rw [List.map_cons, List.cons_append, lastGroupFrom, if_neg (symbol_ne_pad s),
      if_neg (Nat.lt_irrefl 0), sextet?_symbol]
    dsimp only
    rw [ih (s :: done) (by simp only [List.length_cons] at h ⊢; omega)]
    simp

/-- No byte is astray at the end of symbols and padding. -/
theorem strayEnd?_eq_none {text : List UInt8} (h : ∀ b ∈ text, isSignificant b = true) :
    strayEnd? text = none := by
  rw [strayEnd?]
  split
  · rw [Option.filter_eq_none_iff]
    intro b hb
    have hsignificant := h b (List.mem_of_getLast? hb)
    simp only [isSignificant, Bool.or_eq_true, beq_iff_eq] at hsignificant
    rcases hsignificant with hb | rfl
    · simp [hb]
    · simp
  · rfl

theorem isSignificant_of_mem_symbols {sextets : List (Fin 64)} {count : Nat} {b : UInt8}
    (hb : b ∈ sextets.map symbol ++ List.replicate count pad) : isSignificant b = true := by
  rcases List.mem_append.1 hb with hb | hb
  · simp [isSignificant, isSymbol_of_mem_map_symbol hb]
  · rw [List.eq_of_mem_replicate hb]
    simp [isSignificant]

/-- The fault of a last group that begins after whole groups and has `count` padding
signs or as many as it needs. -/
theorem lenient_fault? (start count : Nat) (sextets : List (Fin 64)) (hstart : start % 4 = 0)
    (hpos : 0 < sextets.length) (hle : sextets.length ≤ 4)
    (hcount : count = 0 ∨ 2 ≤ sextets.length ∧ count = 4 - sextets.length) :
    (LastGroup.mk sextets count).fault? lenient start =
      if (start + sextets.length) % 4 = 0 ∨ count ≠ 0 then none
      else if (start + sextets.length) % 4 = 1 then
        some (.symbolLeftOver (start + sextets.length))
      else some .badPadding := by
  simp only [LastGroup.fault?, LastGroup.paddedBy, lenient, Bool.not_true, Bool.false_and,
    Bool.false_eq_true, if_false, Bool.not_eq_true', decide_eq_false_iff_not]
  split_ifs <;> first | rfl | omega

/-- **Symbols with canonical padding, or with none.**  They have a value when the groups
are whole; else one symbol too many or the missing padding is the fault. -/
theorem decodeStrict_symbols (sextets : List (Fin 64)) (count : Nat)
    (hcount : count = 0 ∨ 2 ≤ sextets.length % 4 ∧ count = 4 - sextets.length % 4) :
    decodeStrict lenient (sextets.map symbol ++ List.replicate count pad) =
      if sextets.length % 4 = 0 ∨ count ≠ 0 then .ok (bytesOf sextets)
      else if sextets.length % 4 = 1 then .error (.symbolLeftOver sextets.length)
      else .error .badPadding := by
  by_cases hnil : sextets = []
  · subst hnil
    obtain rfl : count = 0 := by simpa using hcount
    rfl
  · have hpos : 0 < sextets.length := List.length_pos_iff.2 hnil
    have hlength : (sextets.map symbol ++ List.replicate count pad).length =
        sextets.length + count := by simp
    rw [decodeStrict, strayEnd?_eq_none fun b hb => isSignificant_of_mem_symbols hb, hlength]
    dsimp only
    generalize hstart : 4 * ((sextets.length + count - 1) / 4) = start
    have hle : start ≤ sextets.length := by omega
    have htake : (sextets.map symbol ++ List.replicate count pad).take start =
        (sextets.take start).map symbol := by
      rw [List.take_append_of_le_length (by simpa using hle), List.map_take]
    have hdrop : (sextets.map symbol ++ List.replicate count pad).drop start =
        (sextets.drop start).map symbol ++ List.replicate count pad := by
      rw [List.drop_append_of_le_length (by simpa using hle), List.map_drop]
    have hlast : (sextets.drop start).length = sextets.length - start := List.length_drop
    have hgroup := lastGroupFrom_map_symbol start [] (sextets.drop start) count (by
      rw [hlast, List.length_nil]; omega)
    have hempty : (sextets.map symbol ++ List.replicate count pad).isEmpty = false := by
      simp [hnil]
    have hfault := lenient_fault? start count (sextets.drop start)
      (by omega) (by omega) (by omega) (by omega)
    rw [hlast, Nat.add_sub_cancel' hle] at hfault
    rw [htake, hdrop, sextetsFrom_map_symbol, hgroup]
    simp only [Except.bind, hempty, List.reverse_nil, List.nil_append, Bool.false_eq_true,
      if_false, hfault, List.take_append_drop]
    split_ifs <;> rfl

/-! ## Bits -/

/-- The six bits of a value, the highest first. -/
def bits (s : Fin 64) : List Bool := [5, 4, 3, 2, 1, 0].map s.val.testBit

/-- The number that a run of bits spells. -/
def ofBits (run : List Bool) : Nat := run.foldl (fun n bit => 2 * n + bit.toNat) 0

/-- The whole bytes in a run of bits: eight after eight, and those that are left over at
the end are dropped. -/
def wholeBytes (run : List Bool) : List UInt8 :=
  (List.range (run.length / 8)).map fun i => UInt8.ofNat (ofBits ((run.drop (8 * i)).take 8))

theorem ofBits_append (first second : List Bool) :
    ofBits (first ++ second) = 2 ^ second.length * ofBits first + ofBits second := by
  induction second using List.reverseRecOn with
  | nil => simp [ofBits]
  | append_singleton second bit ih =>
    have hlast : ∀ run, ofBits (run ++ [bit]) = 2 * ofBits run + bit.toNat := fun run => by
      simp [ofBits]
    rw [← List.append_assoc, hlast, hlast, ih, List.length_append, List.length_singleton,
      Nat.pow_succ, Nat.mul_comm _ 2, Nat.mul_assoc, Nat.mul_add, Nat.add_assoc]

@[simp] theorem length_bits (s : Fin 64) : (bits s).length = 6 := rfl

@[simp] theorem ofBits_bits (s : Fin 64) : ofBits (bits s) = s.val := by
  revert s; decide

theorem ofBits_bits_take_two (s : Fin 64) : ofBits ((bits s).take 2) = s.val / 16 := by
  revert s; decide

theorem ofBits_bits_take_four (s : Fin 64) : ofBits ((bits s).take 4) = s.val / 4 := by
  revert s; decide

theorem ofBits_bits_drop_two (s : Fin 64) : ofBits ((bits s).drop 2) = s.val % 16 := by
  revert s; decide

theorem ofBits_bits_drop_four (s : Fin 64) : ofBits ((bits s).drop 4) = s.val % 4 := by
  revert s; decide

theorem length_wholeBytes (run : List Bool) : (wholeBytes run).length = run.length / 8 := by
  rw [wholeBytes, List.length_map, List.length_range]

theorem wholeBytes_of_length_lt {run : List Bool} (h : run.length < 8) : wholeBytes run = [] := by
  rw [wholeBytes, Nat.div_eq_of_lt h]
  rfl

theorem wholeBytes_append {byte : List Bool} (h : byte.length = 8) (run : List Bool) :
    wholeBytes (byte ++ run) = UInt8.ofNat (ofBits byte) :: wholeBytes run := by
  have hcount : (byte ++ run).length / 8 = run.length / 8 + 1 := by
    rw [List.length_append, h]
    omega
  rw [wholeBytes, hcount, List.range_succ_eq_map, List.map_cons, List.map_map]
  congr 1
  · rw [Nat.mul_zero, List.drop_zero, List.take_left' h]
  · apply List.map_congr_left
    intro i _
    rw [Function.comp_apply, Nat.succ_eq_add_one, Nat.mul_add, Nat.mul_one, Nat.add_comm, ← h,
      List.drop_length_add_append, h]

/-! ## The bytes that symbols spell -/

/-- The first symbol of a group and two bits of the second make a byte. -/
theorem wholeBytes_first (a b : Fin 64) (run : List Bool) :
    wholeBytes (bits a ++ (bits b ++ run)) =
      firstByte a b :: wholeBytes ((bits b).drop 2 ++ run) := by
  have hsplit : bits a ++ (bits b ++ run) =
      (bits a ++ (bits b).take 2) ++ ((bits b).drop 2 ++ run) := rfl
  have hbyte : ofBits (bits a ++ (bits b).take 2) = 4 * a.val + b.val / 16 := by
    rw [ofBits_append, ofBits_bits, ofBits_bits_take_two]
    rfl
  rw [hsplit, wholeBytes_append rfl, hbyte, firstByte]

/-- What is left of the second symbol and four bits of the third make a byte. -/
theorem wholeBytes_second (b c : Fin 64) (run : List Bool) :
    wholeBytes ((bits b).drop 2 ++ (bits c ++ run)) =
      secondByte b c :: wholeBytes ((bits c).drop 4 ++ run) := by
  have hsplit : (bits b).drop 2 ++ (bits c ++ run) =
      ((bits b).drop 2 ++ (bits c).take 4) ++ ((bits c).drop 4 ++ run) := rfl
  have hbyte : ofBits ((bits b).drop 2 ++ (bits c).take 4) = 16 * (b.val % 16) + c.val / 4 := by
    rw [ofBits_append, ofBits_bits_drop_two, ofBits_bits_take_four]
    rfl
  rw [hsplit, wholeBytes_append rfl, hbyte, secondByte]

/-- What is left of the third symbol and the fourth make a byte. -/
theorem wholeBytes_third (c d : Fin 64) (run : List Bool) :
    wholeBytes ((bits c).drop 4 ++ (bits d ++ run)) = thirdByte c d :: wholeBytes run := by
  have hbyte : ofBits ((bits c).drop 4 ++ bits d) = 64 * (c.val % 4) + d.val := by
    rw [ofBits_append, ofBits_bits_drop_four, ofBits_bits]
    rfl
  rw [← List.append_assoc, wholeBytes_append rfl, hbyte, thirdByte]

/-- The value of symbols is the run of their bits, cut down to whole bytes. -/
theorem bytesOf_eq_wholeBytes (sextets : List (Fin 64)) :
    bytesOf sextets = wholeBytes (sextets.flatMap bits) := by
  fun_induction bytesOf sextets with
  | case1 a b c d rest ih =>
    simp only [List.flatMap_cons, wholeBytes_first, wholeBytes_second, wholeBytes_third, ih]
  | case2 a b c =>
    simp only [List.flatMap_cons, wholeBytes_first, wholeBytes_second]
    rw [wholeBytes_of_length_lt (by simp)]
  | case3 a b =>
    simp only [List.flatMap_cons, wholeBytes_first]
    rw [wholeBytes_of_length_lt (by simp)]
  | case4 sextets hfour hthree htwo =>
    match sextets, hfour, hthree, htwo with
    | [], _, _, _ => rfl
    | [s], _, _, _ => rw [wholeBytes_of_length_lt (by simp)]
    | [a, b], _, _, htwo => exact (htwo a b rfl).elim
    | [a, b, c], _, hthree, _ => exact (hthree a b c rfl).elim
    | a :: b :: c :: d :: rest, hfour, _, _ => exact (hfour a b c d rest rfl).elim

/-! ## The value of any text -/

/-- Where the first closing sign of a text stands; past the end if it has none. -/
def closingPosition (text : List UInt8) : Nat :=
  (List.range text.length).findIdx fun position => IsClosing text position

/-- The six-bit values of the symbols before the first closing sign. -/
def symbolsRead (text : List UInt8) : List (Fin 64) :=
  (text.take (closingPosition text)).filterMap sextet?

theorem closingPosition_of_not_isClosing {text : List UInt8} (h : ∀ i, ¬IsClosing text i) :
    closingPosition text = text.length := by
  have hnone : closingPosition text = (List.range text.length).length :=
    List.findIdx_eq_length_of_false fun i _ => decide_eq_false (h i)
  rw [hnone, List.length_range]

theorem closingPosition_of_isClosing {text : List UInt8} {position : Nat}
    (h : IsClosing text position) (hfirst : ∀ i < position, ¬IsClosing text i) :
    closingPosition text = position := by
  have hlt : position < (List.range text.length).length := by
    rw [List.length_range]
    exact h.lt_length
  rw [closingPosition, List.findIdx_eq hlt]
  constructor
  · rw [List.getElem_range]
    exact decide_eq_true h
  · intro i hi
    rw [List.getElem_range]
    exact decide_eq_false (hfirst i hi)

-- Noise between two padding signs does not keep the second from closing the group.
example : closingPosition [0x51, 0x51, pad, 0x20, pad, 0x51] = 4 := by decide

theorem length_flatMap_bits (sextets : List (Fin 64)) :
    (sextets.flatMap bits).length = 6 * sextets.length := by
  induction sextets with
  | nil => rfl
  | cons s sextets ih =>
    rw [List.flatMap_cons, List.length_append, ih, length_bits, List.length_cons]
    omega

/-- What cleaning leaves of any text: the symbols before the first closing sign, and the
padding that makes their last group whole if there is such a sign. -/
theorem clean_eq (text : List UInt8) : ∃ count,
    clean text = (symbolsRead text).map symbol ++ List.replicate count pad ∧
    (count ≠ 0 ↔ ∃ i < text.length, IsClosing text i) ∧
    (count = 0 ∨ 2 ≤ (symbolsRead text).length % 4 ∧
      count = 4 - (symbolsRead text).length % 4) := by
  by_cases hclosing : ∃ i, IsClosing text i
  · have hposition := closingPosition_of_isClosing (Nat.find_spec hclosing)
      fun i hi => Nat.find_min hclosing hi
    obtain ⟨hphase, hclean⟩ := clean_of_isClosing (Nat.find_spec hclosing)
      fun i hi => Nat.find_min hclosing hi
    rw [← hposition, ← length_filterMap_sextet?, ← symbolsRead] at hphase hclean
    rw [filter_isSymbol, ← symbolsRead] at hclean
    obtain ⟨i, hi⟩ := hclosing
    have hlt : (symbolsRead text).length % 4 < 4 := Nat.mod_lt _ (by decide)
    exact ⟨_, hclean, iff_of_true (by omega) ⟨i, hi.lt_length, hi⟩, .inr ⟨hphase, rfl⟩⟩
  · have hnone : ∀ i, ¬IsClosing text i := fun i hi => hclosing ⟨i, hi⟩
    have hsymbols : symbolsRead text = text.filterMap sextet? := by
      rw [symbolsRead, closingPosition_of_not_isClosing hnone, List.take_length]
    refine ⟨0, ?_, iff_of_false (by simp) fun ⟨i, _, hi⟩ => hnone i hi, .inl rfl⟩
    rw [clean_of_not_isClosing hnone, filter_isSymbol, hsymbols, List.replicate_zero,
      List.append_nil]

/-- **What decoding gives, for every text.**  The text has a value exactly when it has a
closing sign or whole groups only, and then the value is what the bits of the symbols
spell.  Otherwise the fault is the one symbol too many or the missing padding, and no
other. -/
theorem decode_exact (text : List UInt8) :
    let symbols := symbolsRead text
    let value := wholeBytes (symbols.flatMap bits)
    decode text =
      (if symbols.length % 4 = 0 ∨ ∃ i < text.length, IsClosing text i then .ok value
      else if symbols.length % 4 = 1 then .error (.symbolLeftOver symbols.length)
      else .error .badPadding) ∧
    value.length = 6 * symbols.length / 8 ∧
    (Fault.symbolLeftOver symbols.length).message =
      "Invalid input length: " ++ toString symbols.length ∧
    Fault.badPadding.message = "Invalid padding" := by
  intro symbols value
  refine ⟨?_, ?_, rfl, rfl⟩
  · obtain ⟨count, hclean, hcount, hpads⟩ := clean_eq text
    rw [decode, hclean, decodeStrict_symbols _ _ hpads, bytesOf_eq_wholeBytes]
    simp only [hcount]
    rfl
  · rw [length_wholeBytes, length_flatMap_bits]

end ExposureKit.Base64
