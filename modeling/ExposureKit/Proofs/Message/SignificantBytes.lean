import ExposureKit.Message.Recovery
import ExposureKit.Proofs.Bytes.Base64Cleaning
import ExposureKit.Proofs.Message.MarkedPayload

/-!
# What a recovery depends on

A recovery looks at its file head through the payload, and at the payload through what
cleaning leaves of it.  Cleaning passes over noise, so that two payloads with the same
symbols and padding signs, in the same order, decode to the same bytes or have the same
fault (`decode_eq_of_filter_eq`).

The main result is `recover_of_significant`.
-/

namespace ExposureKit

variable {front head other payload otherPayload rest text : List UInt8}

/-! ## The payload alone decides -/

theorem recover_eq_of_payload? (h : payload? head = some payload) :
    recover head = (decodePayload payload).bind decompressData := by
  rw [recover, findPayload, h]
  rfl

/-- Texts that differ in noise only have the same value, or the same fault. -/
theorem Base64.decode_eq_of_filter_eq
    (h : text.filter isSignificant = other.filter isSignificant) : decode text = decode other := by
  have hclean : clean text = clean other := by
    rw [← clean_filter_isSignificant text, h, clean_filter_isSignificant]
  rw [decode, hclean, decode]

/-- Payloads that differ in noise only give the same message, or the same cause. -/
theorem HasPayload.recover_eq (hhead : HasPayload head payload)
    (hother : HasPayload other otherPayload)
    (hsame : payload.filter Base64.isSignificant = otherPayload.filter Base64.isSignificant) :
    recover head = recover other := by
  rw [recover_eq_of_payload? hhead.payload?_eq, recover_eq_of_payload? hother.payload?_eq,
    decodePayload, decodePayload, Base64.decode_eq_of_filter_eq hsame]

/-! ## Heads with one front -/

/-- Behind a front that holds a marker, the payload goes on with what is added, up to the final
byte of that. -/
theorem exists_hasPayload_append (h : marker <:+: front) :
    ∃ begun, ∀ rest, rest ≠ [] → HasPayload (front ++ rest) (begun ++ rest.dropLast) := by
  obtain ⟨before, after, hbefore, rfl⟩ := exists_first_marker h
  refine ⟨after, ?_⟩
  intro rest hrest
  refine ⟨before, after ++ rest, hbefore, ?_, ?_⟩
  · simp
  · rw [List.dropLast_append_of_ne_nil hrest]

/-- Behind a front that holds a marker, nothing counts but the significant bytes before the
final one. -/
theorem recover_append_eq (h : marker <:+: front) (hrest : rest ≠ []) (hother : other ≠ [])
    (hsame : rest.dropLast.filter Base64.isSignificant =
      other.dropLast.filter Base64.isSignificant) :
    recover (front ++ rest) = recover (front ++ other) := by
  obtain ⟨begun, hbegun⟩ := exists_hasPayload_append h
  apply (hbegun rest hrest).recover_eq (hbegun other hother)
  rw [List.filter_append, List.filter_append, hsame]

/-! ## The main result -/

/-- **Only the significant bytes of the payload count.**  Every head that holds a marker has a
payload, and heads whose payloads have the same symbols and padding signs in the same order give
the same message, or fail for the same cause.  So it makes no difference what stands before the
first marker, what the final byte is behind a head that holds a marker already, and what noise
stands anywhere in the payload. -/
theorem recover_of_significant :
    (∀ head, marker <:+: head → ∃ payload, HasPayload head payload) ∧
    (∀ head other payload otherPayload, HasPayload head payload → HasPayload other otherPayload →
      payload.filter Base64.isSignificant = otherPayload.filter Base64.isSignificant →
      recover head = recover other) ∧
    (∀ before otherBefore after, ¬marker <:+: before → ¬marker <:+: otherBefore →
      recover (before ++ (marker ++ after)) = recover (otherBefore ++ (marker ++ after))) ∧
    ∀ front, marker <:+: front →
      (∀ final otherFinal, recover (front ++ [final]) = recover (front ++ [otherFinal])) ∧
      ∀ text noisy final,
        noisy.filter Base64.isSignificant = text.filter Base64.isSignificant →
        recover (front ++ (noisy ++ [final])) = recover (front ++ (text ++ [final])) := by
  refine ⟨?_, ?_, ?_, ?_⟩
  · intro head hmarker
    exact exists_hasPayload hmarker
  · intro head other payload otherPayload hhead hother hsame
    exact hhead.recover_eq hother hsame
  · intro before otherBefore after hbefore hotherBefore
    have hhead : HasPayload (before ++ (marker ++ after)) after.dropLast :=
      ⟨before, after, hbefore, rfl, rfl⟩
    exact hhead.recover_eq ⟨otherBefore, after, hotherBefore, rfl, rfl⟩ rfl
  · intro front hmarker
    constructor
    · intro final otherFinal
      exact recover_append_eq hmarker (by simp) (by simp) rfl
    · intro text noisy final hsame
      apply recover_append_eq hmarker (by simp) (by simp)
      rw [List.dropLast_concat, List.dropLast_concat, hsame]

/-- The text `QQ==` behind half a marker, with a line feed between its padding signs. -/
def noisyHead : List UInt8 := [0x42, 0x46] ++ (marker ++ [0x51, 0x51, 0x3D, 0x0A, 0x3D, 0x3D])

/-- The same text behind another byte, without the line feed and with another final byte. -/
def plainHead : List UInt8 := [0x00] ++ (marker ++ [0x51, 0x51, 0x3D, 0x3D, 0x58])

theorem recover_of_significant_line_feed :
    HasPayload noisyHead [0x51, 0x51, 0x3D, 0x0A, 0x3D] ∧
    HasPayload plainHead [0x51, 0x51, 0x3D, 0x3D] ∧ recover noisyHead = recover plainHead := by
  have hnoisy : HasPayload noisyHead [0x51, 0x51, 0x3D, 0x0A, 0x3D] :=
    ⟨[0x42, 0x46], _, by decide, rfl, rfl⟩
  have hplain : HasPayload plainHead [0x51, 0x51, 0x3D, 0x3D] := ⟨[0x00], _, by decide, rfl, rfl⟩
  obtain ⟨-, hrecover, -⟩ := recover_of_significant
  exact ⟨hnoisy, hplain, hrecover _ _ _ _ hnoisy hplain (by decide)⟩

end ExposureKit
