import ExposureKit.Message.Recovery
import ExposureKit.Proofs.Bytes.Base64RoundTrip
import ExposureKit.Proofs.Bzip2.Concatenation
import ExposureKit.Proofs.Message.MarkedPayload

/-!
# Embedded messages are recovered

A message is embedded in a file by its compressed data, written as text behind a marker.
Only the head of the file is read, and its final byte is no part of the payload, so the
file has to go on after the text.  Then the payload is the text and whatever is read after
it (`take_headLimit`), and all that matters of the latter is whether it can add symbols.

The main result is `ofFile_embedded`.
-/

namespace ExposureKit

/-! ## The head of a file -/

/-- What is read of a file after its first `offset` bytes, but for the final byte that is
read. -/
def readAfter (offset : Nat) (content : List UInt8) : List UInt8 :=
  (content.take headLimit).dropLast.drop offset

/-- The head of a file that begins with `front` and goes on within the limit. -/
theorem take_headLimit {front rest : List UInt8} (hlt : front.length < headLimit)
    (hrest : rest ≠ []) : ∃ final, (front ++ rest).take headLimit =
      front ++ (readAfter front.length (front ++ rest) ++ [final]) := by
  have htake : (front ++ rest).take headLimit = front ++ rest.take (headLimit - front.length) := by
    rw [List.take_append, List.take_of_length_le (Nat.le_of_lt hlt)]
  have hne : rest.take (headLimit - front.length) ≠ [] := by
    rw [Ne, List.take_eq_nil_iff, not_or]
    exact ⟨by omega, hrest⟩
  have hread : readAfter front.length (front ++ rest) =
      (rest.take (headLimit - front.length)).dropLast := by
    rw [readAfter, htake, List.dropLast_append_of_ne_nil hne, List.drop_left]
  exact ⟨_, by rw [htake, hread, List.dropLast_concat_getLast hne]⟩

/-- After the front nothing is read but the final byte, if that is all there is. -/
theorem readAfter_eq_nil {front rest : List UInt8} (h : rest.length = 1) :
    readAfter front.length (front ++ rest) = [] := by
  rw [readAfter, List.drop_eq_nil_iff, List.length_dropLast, List.length_take, List.length_append]
  omega

/-! ## The three stages -/

theorem recover_eq_ok {head payload data message : List UInt8} (hpayload : payload? head = some payload)
    (hdata : Base64.decode payload = .ok data) (hmessage : Bzip2.decompress data = .ok message) :
    recover head = .ok message := by
  rw [recover, findPayload, hpayload]
  simp only [Except.bind, decodePayload, hdata, Except.mapError, decompressData, hmessage]

/-! ## The main result -/

/-- **Embedded messages are recovered.**  A file holds a message when, after bytes without
a marker, a marker and the text of the compressed message stand within the head, with
whatever noise in the text, and at least one byte comes after it.  If there is more after
the text than the final byte, the text has to end in padding or no symbol may be read after
it. -/
theorem ofFile_embedded {before data text rest message : List UInt8}
    (hbefore : ¬marker <:+: before)
    (hmessage : Bzip2.decompress data = .ok message)
    (htext : text.filter Base64.isSignificant = Base64.encode data)
    (hrest : rest ≠ [])
    (hfits : before.length + 3 + text.length ≤ 4095)
    (hend : rest.length = 1 ∨ data.length % 3 ≠ 0 ∨
      ∀ b ∈ readAfter (before.length + 3 + text.length) (before ++ marker ++ text ++ rest),
        Base64.isSymbol b = false) :
    Outcome.ofFile (before ++ marker ++ text ++ rest) = .recovered message := by
  have hlength : (before ++ marker ++ text).length = before.length + 3 + text.length := by
    rw [List.length_append, List.length_append]
    rfl
  have hlt : (before ++ marker ++ text).length < headLimit := by
    rw [hlength]
    exact Nat.lt_succ_of_le hfits
  obtain ⟨final, hhead⟩ := take_headLimit hlt hrest
  rw [← hlength] at hend
  set after := readAfter (before ++ marker ++ text).length (before ++ marker ++ text ++ rest)
    with hafter
  have hpayload : payload? ((before ++ marker ++ text ++ rest).take headLimit) =
      some (text ++ after) := by
    rw [hhead, ← payload?_append hbefore (text ++ after) final]
    simp only [List.append_assoc]
  have hdata : Base64.decode (text ++ after) = .ok data := by
    apply Base64.decode_append_of_filter_eq_encode htext
    rcases hend with hone | hpadding | hnone
    · right
      intro b hb
      rw [hafter, readAfter_eq_nil hone] at hb
      exact (List.not_mem_nil hb).elim
    · exact .inl hpadding
    · exact .inr hnone
  rw [Outcome.ofFile, recover_eq_ok hpayload hdata hmessage]

/-- The letters `hi`, after half a marker and a blank, with a symbol and a line feed after
the padding. -/
theorem ofFile_embedded_letters :
    Outcome.ofFile ([0x42, 0x46] ++ marker ++ (0x20 :: Base64.encode Bzip2.letters)
      ++ [0x41, 0x0A]) = .recovered [0x68, 0x69] := by
  have hmessage : Bzip2.decompress Bzip2.letters = .ok [0x68, 0x69] :=
    Bzip2.StreamDecoder.decompress_bytesOf [Bzip2.letterStream]
  have hbefore : ¬marker <:+: [0x42, 0x46] := by decide
  have htext : (0x20 :: Base64.encode Bzip2.letters).filter Base64.isSignificant =
      Base64.encode Bzip2.letters := by decide +kernel
  exact ofFile_embedded hbefore hmessage htext (by decide) (by decide) (.inr (.inl (by decide)))

end ExposureKit
