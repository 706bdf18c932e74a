import ExposureKit.Message.Payload

/-!
# The payload after the first marker

A marker does not overlap itself, so after bytes that hold none it is the first one
whatever these bytes end in (`markerOffset?_append`).  The payload is sliced between two offsets,
which enclose a part of the head exactly if something stands behind the marker
(`encloses_marked_iff`); else the payload is empty (`payload?_marked`).

`HasPayload` says the same without a search, and every head that holds a marker has a
payload in this sense (`exists_hasPayload`).
-/

namespace ExposureKit

/-! ## The first marker -/

/-- Bytes that hold no marker are not made to begin with one by a marker that follows. -/
theorem not_marker_prefix_append {before : List UInt8} (hne : before ≠ [])
    (h : ¬marker <:+: before) (rest : List UInt8) : ¬marker <+: before ++ (marker ++ rest) := by
  intro hprefix
  match before, hne with
  | [b], _ =>
    -- The second byte of the marker would be its first.
    simp [marker] at hprefix
  | [b, c], _ =>
    -- The third byte of the marker would be its first.
    simp [marker] at hprefix
  | b :: c :: d :: before, _ =>
    simp only [marker, List.cons_append, List.cons_prefix_cons] at hprefix
    obtain ⟨rfl, rfl, rfl, -⟩ := hprefix
    exact h (List.prefix_append marker before).isInfix

theorem markerOffset?_cons {b : UInt8} {bytes : List UInt8}
    (h : ¬marker <+: b :: bytes) : markerOffset? (b :: bytes) = (markerOffset? bytes).map (· + 1) := by
  rw [markerOffset?, markerOffsetFrom, if_neg (by simpa using h), markerOffsetFrom_eq_map]
  simp only [Nat.zero_add, Nat.add_comm]

/-- After bytes that hold no marker, a marker is the first. -/
theorem markerOffset?_append {before : List UInt8} (h : ¬marker <:+: before) (rest : List UInt8) :
    markerOffset? (before ++ (marker ++ rest)) = some before.length := by
  induction before with
  | nil => rfl
  | cons b before ih =>
    have hbefore : ¬marker <:+: before := fun hinfix => h (List.infix_cons hinfix)
    have hprefix := not_marker_prefix_append (List.cons_ne_nil b before) h rest
    rw [List.cons_append] at hprefix ⊢
    rw [markerOffset?_cons hprefix, ih hbefore]
    rfl

/-- Of the markers in some bytes one is the first. -/
theorem exists_first_marker {head : List UInt8} (h : marker <:+: head) :
    ∃ before after, ¬marker <:+: before ∧ head = before ++ (marker ++ after) := by
  induction head with
  | nil =>
    have hnil : marker = [] := List.eq_nil_of_infix_nil h
    cases hnil
  | cons b head ih =>
    by_cases hprefix : marker <+: b :: head
    · obtain ⟨after, hafter⟩ := hprefix
      exact ⟨[], after, by decide, hafter.symm⟩
    · obtain ⟨before, after, hbefore, rfl⟩ := ih ((List.infix_cons_iff.1 h).resolve_left hprefix)
      refine ⟨b :: before, after, ?_, rfl⟩
      intro hinfix
      rcases List.infix_cons_iff.1 hinfix with hfront | hback
      · exact hprefix (hfront.trans (List.prefix_append (b :: before) _))
      · exact hbefore hback

/-! ## The payload -/

/-- From the start of a payload to its end there is one byte less than behind the marker. -/
theorem payloadEnd_marked (before after : List UInt8) :
    payloadEnd (before ++ (marker ++ after)) + 1 = payloadStart before.length + after.length := by
  have hmarker : 0 < marker.length := by decide
  rw [payloadEnd, payloadStart, List.length_append, List.length_append]
  omega

/-- The offsets of a payload enclose a part of the head exactly if something stands behind the
marker. -/
theorem encloses_marked_iff (before after : List UInt8) :
    Encloses (before ++ (marker ++ after)) (payloadStart before.length)
      (payloadEnd (before ++ (marker ++ after))) ↔ after ≠ [] := by
  have hend := payloadEnd_marked before after
  have hle : payloadEnd (before ++ (marker ++ after)) ≤ (before ++ (marker ++ after)).length :=
    Nat.sub_le _ 1
  rw [Encloses, ← List.length_pos_iff]
  omega

/-- Between its offsets stands what is behind the marker, without the final byte. -/
theorem drop_take_marked {after : List UInt8} (before : List UInt8) (hafter : after ≠ []) :
    ((before ++ (marker ++ after)).take (payloadEnd (before ++ (marker ++ after)))).drop
      (payloadStart before.length) = after.dropLast := by
  have hfront : payloadStart before.length = (before ++ marker).length := List.length_append.symm
  rw [payloadEnd, ← List.dropLast_eq_take, ← List.append_assoc,
    List.dropLast_append_of_ne_nil hafter, hfront, List.drop_left]

/-- The payload is what stands behind the marker, without the final byte. -/
theorem payloadBehind_marked (before after : List UInt8) :
    payloadBehind (before ++ (marker ++ after)) before.length = after.dropLast := by
  rw [payloadBehind]
  by_cases hafter : after = []
  · subst hafter
    rw [slice?_of_not_encloses fun h => (encloses_marked_iff before []).1 h rfl]
    rfl
  · rw [slice?_of_encloses ((encloses_marked_iff before after).2 hafter),
      drop_take_marked before hafter, Option.getD_some]

/-- The payload is what stands behind the first marker, without the final byte. -/
theorem payload?_marked {before : List UInt8} (h : ¬marker <:+: before) (after : List UInt8) :
    payload? (before ++ (marker ++ after)) = some after.dropLast := by
  rw [payload?, markerOffset?_append h, Option.map_some, payloadBehind_marked]

theorem payload?_append {before : List UInt8} (h : ¬marker <:+: before) (payload : List UInt8)
    (final : UInt8) : payload? (before ++ (marker ++ (payload ++ [final]))) = some payload := by
  rw [payload?_marked h, List.dropLast_concat]

/-- The head has this payload: behind a marker that is the first, and without the final byte. -/
def HasPayload (head payload : List UInt8) : Prop :=
  ∃ before after, ¬marker <:+: before ∧ head = before ++ (marker ++ after) ∧
    payload = after.dropLast

theorem HasPayload.payload?_eq {head payload : List UInt8} (h : HasPayload head payload) :
    payload? head = some payload := by
  obtain ⟨before, after, hbefore, rfl, rfl⟩ := h
  exact payload?_marked hbefore after

theorem exists_hasPayload {head : List UInt8} (h : marker <:+: head) :
    ∃ payload, HasPayload head payload := by
  obtain ⟨before, after, hbefore, hhead⟩ := exists_first_marker h
  exact ⟨after.dropLast, before, after, hbefore, hhead, rfl⟩

end ExposureKit
