import ExposureKit.Proofs.Bytes.Base64RoundTrip

/-!
# Cleaned texts

What cleaning leaves of a text is symbols, and behind them either no padding or as much as makes
their last group whole.  A text of this form has nothing to be cleaned of (`clean_symbols_pads`), so
that cleaning it again changes nothing.  If there is padding, some sign has closed a group, and
the first one to do so stays the first whatever is written behind the text
(`clean_append_of_isClosing`).

The main result is `clean_shape`.
-/

namespace ExposureKit.Base64

variable {text symbols : List UInt8} {pads position : Nat}

/-! ## Texts that are clean -/

/-- Symbols, with no padding or with the padding that makes their last group whole, are left as they
are. -/
theorem clean_symbols_pads (hsymbols : ∀ b ∈ symbols, isSymbol b = true)
    (hpads : pads = 0 ∨ 2 ≤ symbols.length % 4 ∧ pads = 4 - symbols.length % 4) :
    clean (symbols ++ List.replicate pads pad) = symbols ++ List.replicate pads pad := by
  obtain ⟨sextets, rfl⟩ : ∃ sextets : List (Fin 64), symbols = sextets.map symbol :=
    ⟨symbols.filterMap sextet?, by rw [← filter_isSymbol, List.filter_eq_self.2 hsymbols]⟩
  rw [List.length_map] at hpads
  rw [clean_map_symbol_append]
  congr 1
  rcases hpads with rfl | ⟨hphase, hcount⟩
  · rfl
  · have hclosing : cleanFrom (sextets.length % 4) 0 (List.replicate pads pad ++ []) =
        List.replicate (0 + pads) pad :=
      cleanFrom_closing hphase (by omega) (by omega) []
    simpa using hclosing

/-! ## Texts that go on -/

/-- What comes behind the first closing sign is not read. -/
theorem clean_append_of_isClosing (hclosing : IsClosing text position)
    (hfirst : ∀ i < position, ¬IsClosing text i) (more : List UInt8) :
    clean (text ++ more) = clean text := by
  have hlt : position < text.length := hclosing.lt_length
  have hfirstMore : ∀ i < position, ¬IsClosing (text ++ more) i := by
    intro i hi
    rw [isClosing_append_iff (hi.trans hlt)]
    exact hfirst i hi
  obtain ⟨-, hclean⟩ := clean_of_isClosing hclosing hfirst
  obtain ⟨-, hcleanMore⟩ := clean_of_isClosing (hclosing.append more) hfirstMore
  rw [hcleanMore, hclean, List.take_append_of_le_length (Nat.le_of_lt hlt)]

/-! ## The main result -/

/-- **What cleaning leaves of a text.**  It is the symbols of the text up to the first closing sign,
in their order, and behind them the padding that makes their last group whole if there is such a
sign, and none if there is not.  Cleaning that again changes nothing; and where it ends with
padding, the text may go on in any way and leaves the same. -/
theorem clean_shape (text : List UInt8) :
    (∃ symbols pads, clean text = symbols ++ List.replicate pads pad ∧
      (∀ b ∈ symbols, isSymbol b = true) ∧ symbols.Sublist text ∧
      (pads = 0 ∨ 2 ≤ symbols.length % 4 ∧ pads = 4 - symbols.length % 4) ∧
      symbols = (text.take (closingPosition text)).filter isSymbol ∧
      (pads ≠ 0 ↔ ∃ i < text.length, IsClosing text i)) ∧
    clean (clean text) = clean text ∧
    ((clean text).getLast? = some pad → ∀ more, clean (text ++ more) = clean text) := by
  obtain ⟨pads, hclean, hclosed, hpads⟩ := clean_eq text
  have hread : (symbolsRead text).map symbol =
      (text.take (closingPosition text)).filter isSymbol := (filter_isSymbol _).symm
  rw [← List.length_map (f := symbol), hread] at hpads
  rw [hread] at hclean
  have hsymbols : ∀ b ∈ (text.take (closingPosition text)).filter isSymbol, isSymbol b = true :=
    fun b hb => (List.mem_filter.1 hb).2
  refine ⟨⟨_, pads, hclean, hsymbols, ?_, hpads, rfl, hclosed⟩, ?_, ?_⟩
  · exact List.filter_sublist.trans (List.take_sublist _ _)
  · rw [hclean]
    exact clean_symbols_pads hsymbols hpads
  · intro hlast more
    have hne : pads ≠ 0 := by
      rintro rfl
      rw [hclean, List.replicate_zero, List.append_nil] at hlast
      exact ne_pad_of_isSymbol (hsymbols pad (List.mem_of_getLast? hlast)) rfl
    have hclosing : ∃ i, IsClosing text i := by
      obtain ⟨i, -, hi⟩ := hclosed.1 hne
      exact ⟨i, hi⟩
    exact clean_append_of_isClosing (Nat.find_spec hclosing)
      (fun i hi => Nat.find_min hclosing hi) more

/-- The text `QQ==` with noise between its padding signs and behind them. -/
def padsApart : List UInt8 := [0x51, 0x51, pad, 0x0A, pad, 0x21]

theorem clean_shape_noise_between_pads :
    clean padsApart = [0x51, 0x51, pad, pad] ∧
      clean [0x51, 0x51, pad, pad] = [0x51, 0x51, pad, pad] ∧
      clean (padsApart ++ [0x41, pad]) = [0x51, 0x51, pad, pad] := by
  have hclean : clean padsApart = [0x51, 0x51, pad, pad] := by decide
  obtain ⟨-, hagain, hmore⟩ := clean_shape padsApart
  rw [hclean] at hagain hmore
  exact ⟨hclean, hagain, hmore (by decide) [0x41, pad]⟩

end ExposureKit.Base64
