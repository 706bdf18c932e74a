import Mathlib
import ExposureKit.Message.Recovery
import ExposureKit.Proofs.Bytes.LiteralRoundTrip
import ExposureKit.Proofs.Text.LineBounds
import ExposureKit.Text.Split

/-!
# The lines of a report

A message is reported as its literal, and that is plain text: printable ASCII, in which the only
blank is the space.  So filling it into lines changes no character of it, and what is printed
can be split into its lines again.  The spaces at the ends of lines are all that is lost.

* `splitOn_printed`: the printed text, line by line.
* `isPlain_of_mem_wrap`, `flatten_wrap`: plain text on lines, with spaces and without.
* `space_notMem_ofBytes`: spaces in a literal are those of the message.

The main result is `report_without_spaces`.
-/

namespace ExposureKit

/-! ## Plain text on lines -/

/-- The space is the only blank of plain text. -/
theorem Literal.IsPlain.eq_space {c : Char} (h : IsPlain c) (hblank : isBlank c = true) :
    c = ' ' := by
  have hspace : ∀ n < 0x7F, 0x20 ≤ n → isBlank (Char.ofNat n) = true → n = 0x20 := by decide
  have hlow : ' '.toNat ≤ c.toNat := h.1
  have hhigh : c.toNat ≤ '~'.toNat := h.2
  apply Char.toNat_inj.1
  apply hspace c.toNat
  · exact Nat.lt_succ_of_le hhigh
  · exact hlow
  · rwa [Char.ofNat_toNat]

theorem Literal.IsPlain.blankToSpace_eq {c : Char} (h : IsPlain c) : blankToSpace c = c := by
  unfold blankToSpace
  split
  · next hblank => exact (h.eq_space hblank).symm
  · rfl

namespace Wrap

open Literal (IsPlain)

variable {width : Nat} {text line : List Char}

theorem map_blankToSpace_of_plain (h : ∀ c ∈ text, IsPlain c) : text.map blankToSpace = text := by
  rw [List.map_congr_left (g := id) ?_, List.map_id]
  intro c hc
  exact (h c hc).blankToSpace_eq

/-- Plain text is filled into lines as it is. -/
theorem spaced_wrap_of_plain (h : ∀ c ∈ text, IsPlain c) : Spaced text (wrap width text) := by
  have hspaced := spaced_wrap width text
  rwa [map_blankToSpace_of_plain h] at hspaced

/-- On the lines of plain text there is nothing else. -/
theorem isPlain_of_mem_wrap (h : ∀ c ∈ text, IsPlain c) (hline : line ∈ wrap width text) :
    ∀ c ∈ line, IsPlain c := by
  intro c hc
  apply h
  exact (spaced_wrap_of_plain h).mem hline hc

/-- Without spaces, the lines of plain text make up the text. -/
theorem flatten_wrap (h : ∀ c ∈ text, IsPlain c) (hspace : ' ' ∉ text) :
    (wrap width text).flatten = text := by
  have hspaced : Spaced text (wrap width text) := spaced_wrap_of_plain h
  have hkept : ∀ c ∈ text, (c != ' ') = true := by
    intro c hc
    rw [bne_iff_ne]
    rintro rfl
    exact hspace hc
  have hfilled : ∀ c ∈ (wrap width text).flatten, (c != ' ') = true := by
    intro c hc
    obtain ⟨line, hline, hmem⟩ := List.mem_flatten.1 hc
    exact hkept c (hspaced.mem hline hmem)
  have hfilter := hspaced.filter_eq (· != ' ') (by decide)
  rw [List.filter_eq_self.2 hkept, List.filter_eq_self.2 hfilled] at hfilter
  exact hfilter.symm

end Wrap

/-! ## Spaces in a literal -/

namespace Literal

variable {quote b : UInt8} {text : List Char} {bytes : List UInt8}

/-- The delimiter is one of two quotes, and so no other character. -/
theorem IsQuote.charOf_ne (h : IsQuote quote) {c : Char} (hsingle : c ≠ '\'') (hdouble : c ≠ '"') :
    charOf quote ≠ c := by
  rcases h.charOf_eq with hchar | hchar
  · rw [hchar]
    exact hsingle.symm
  · rw [hchar]
    exact hdouble.symm

/-- Only the space is written with a space. -/
theorem Written.space_notMem (h : Written quote b text) (hquote : IsQuote quote) (hb : b ≠ 0x20) :
    ' ' ∉ text := by
  cases h with
  | @letter b c hletter =>
    have hletters : ∀ entry ∈ letters, ' ' ≠ entry.2 := by decide
    simp [hletters (b, c) hletter]
  | delimiter =>
    have hchar : charOf quote ≠ ' ' := hquote.charOf_ne (by decide) (by decide)
    simp [hchar.symm]
  | plain =>
    have hspace : charOf 0x20 = ' ' := by decide
    rw [List.mem_singleton, ← hspace, charOf_inj]
    exact Ne.symm hb
  | hex =>
    have hdigit : ∀ n < 16, ' ' ≠ Hex.lowerDigit n := by decide
    have hbyte := b.toNat_lt
    have hhigh : ' ' ≠ Hex.lowerDigit (b.toNat / 16) := hdigit _ (by omega)
    have hlow : ' ' ≠ Hex.lowerDigit (b.toNat % 16) := hdigit _ (by omega)
    simp [hhigh, hlow]

theorem space_notMem_ofBytes (h : 0x20 ∉ bytes) : ' ' ∉ ofBytes bytes := by
  have hquote : IsQuote (delimiter bytes) := isQuote_delimiter bytes
  have hchar : charOf (delimiter bytes) ≠ ' ' := hquote.charOf_ne (by decide) (by decide)
  intro hspace
  unfold ofBytes at hspace
  simp only [List.mem_cons, List.mem_append, List.mem_flatMap, List.not_mem_nil, or_false] at hspace
  rcases hspace with hletter | hopening | ⟨b, hb, hwritten⟩ | hclosing
  · exact absurd hletter (by decide)
  · exact hchar hopening.symm
  · have hne : b ≠ 0x20 := by
      rintro rfl
      exact h hb
    exact (written_escape (delimiter bytes) b).space_notMem hquote hne hwritten
  · exact hchar hclosing.symm

end Literal

/-! ## The printed text -/

namespace Outcome

variable {message other : List UInt8}

theorem toList_join_ofList (lines : List (List Char)) :
    (String.join (lines.map String.ofList)).toList = lines.flatten := by
  simp [String.toList_join, List.flatMap_map]

theorem toList_printed (lines : List (List Char)) :
    (String.join ((lines.map String.ofList).map (· ++ "\n"))).toList =
      lines.flatMap (· ++ ['\n']) := by
  simp [String.toList_join, List.flatMap_map]

/-- What is printed for a message is split into its lines again. -/
theorem splitOn_printed (message : List UInt8) :
    splitOn '\n' (String.join ((recovered message).reportLines.map (· ++ "\n"))).toList =
      Wrap.wrap reportWidth (Literal.ofBytes message) ++ [[]] := by
  rw [reportLines, toList_printed, splitOn_flatMap]
  intro line hline hfeed
  have hplain := Wrap.isPlain_of_mem_wrap (Literal.isPlain_of_mem_ofBytes message) hline _ hfeed
  exact absurd hplain.1 (by decide)

/-- Without spaces, the lines of the report are the literal of the message, cut into parts. -/
theorem join_reportLines (h : 0x20 ∉ message) :
    String.join (recovered message).reportLines = String.ofList (Literal.ofBytes message) := by
  apply String.toList_inj.1
  rw [reportLines, toList_join_ofList, String.toList_ofList]
  apply Wrap.flatten_wrap (Literal.isPlain_of_mem_ofBytes message)
  exact Literal.space_notMem_ofBytes h

/-- **A message without spaces can be told from its report.**  The lines of the report, joined
together, are the literal of the message, and so are read as the message; and no other message
without spaces is printed as the same text. -/
theorem report_without_spaces (hmessage : 0x20 ∉ message) :
    String.join (recovered message).reportLines = String.ofList (Literal.ofBytes message) ∧
    Literal.read? (String.join (recovered message).reportLines).toList = some (message, []) ∧
    ∀ other, 0x20 ∉ other →
      String.join ((recovered other).reportLines.map (· ++ "\n")) =
        String.join ((recovered message).reportLines.map (· ++ "\n")) →
      other = message := by
  have hread : Literal.read? (Literal.ofBytes message ++ []) = some (message, []) :=
    Literal.read?_ofBytes message []
  refine ⟨join_reportLines hmessage, ?_, ?_⟩
  · rw [join_reportLines hmessage, String.toList_ofList]
    rwa [List.append_nil] at hread
  · intro other hother hprinted
    have hlines : Wrap.wrap reportWidth (Literal.ofBytes other) =
        Wrap.wrap reportWidth (Literal.ofBytes message) := by
      have hsplit := splitOn_printed other
      rw [hprinted, splitOn_printed] at hsplit
      exact (List.append_cancel_right hsplit).symm
    have hjoined : String.ofList (Literal.ofBytes other) = String.ofList (Literal.ofBytes message) := by
      rw [← join_reportLines hother, ← join_reportLines hmessage, reportLines, reportLines, hlines]
    exact Literal.ofBytes_injective (String.ofList_inj.1 hjoined)

/-- Twenty zero bytes.  The literal is too long for a line, and is cut inside an escape. -/
theorem report_without_spaces_zeros :
    0x20 ∉ List.replicate 20 (0x00 : UInt8) ∧
    (recovered (List.replicate 20 0x00)).reportLines =
      ["b'" ++ String.join (List.replicate 19 "\\x00") ++ "\\x", "00'"] ∧
    Literal.read? (String.join (recovered (List.replicate 20 0x00)).reportLines).toList =
      some (List.replicate 20 0x00, []) := by
  have hspace : 0x20 ∉ List.replicate 20 (0x00 : UInt8) := by decide
  obtain ⟨-, hread, -⟩ := report_without_spaces hspace
  exact ⟨hspace, by cbv, hread⟩

end Outcome

end ExposureKit
