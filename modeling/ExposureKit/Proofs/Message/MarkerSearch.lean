import Mathlib.Logic.Basic
import ExposureKit.Message.Recovery
import ExposureKit.Proofs.Message.MarkedPayload

/-!
# The search for the marker

The search finds the least offset at which a marker stands (`markerOffset?_eq_some_iff`).  Behind
it the head goes on, with a payload and a final byte, or it ends there.  In the first case the
offsets of the payload enclose a part of the head, and it is sliced there; in the second the end is
before the start, and the payload is empty without a slice.

The main result is `findPayload_exact`.
-/

namespace ExposureKit

variable {head before after : List UInt8} {offset i : Nat}

/-! ## Markers in their places -/

/-- A marker stands at this offset. -/
def MarkerAt (head : List UInt8) (offset : Nat) : Prop :=
  (head.drop offset).take marker.length = marker

instance (head : List UInt8) (offset : Nat) : Decidable (MarkerAt head offset) :=
  inferInstanceAs (Decidable (_ = _))

theorem markerAt_iff : MarkerAt head offset ↔ marker <+: head.drop offset := by
  rw [MarkerAt, List.prefix_iff_eq_take, eq_comm]

theorem MarkerAt.isInfix (h : MarkerAt head offset) : marker <:+: head :=
  (markerAt_iff.1 h).isInfix.trans (List.drop_suffix offset head).isInfix

theorem markerAt_length (before after : List UInt8) :
    MarkerAt (before ++ (marker ++ after)) before.length := by
  rw [markerAt_iff, List.drop_left]
  exact List.prefix_append marker after

/-- Neither in bytes that hold no marker nor across their end there is one. -/
theorem not_markerAt_of_lt (h : ¬marker <:+: before) (after : List UInt8) (hi : i < before.length) :
    ¬MarkerAt (before ++ (marker ++ after)) i := by
  have hne : before.drop i ≠ [] := by
    rw [Ne, List.drop_eq_nil_iff]
    omega
  rw [markerAt_iff, List.drop_append_of_le_length (Nat.le_of_lt hi)]
  exact not_marker_prefix_append hne (fun hmarker => h (hmarker.trans (List.drop_suffix _ _).isInfix))
    after

/-! ## The least of them -/

theorem markerOffset?_of_no_marker (h : ¬marker <:+: head) : markerOffset? head = none := by
  induction head with
  | nil => rfl
  | cons b head ih =>
    rw [List.infix_cons_iff, not_or] at h
    rw [markerOffset?_cons h.1, ih h.2]
    rfl

/-- The offset that is found is where the head divides at its first marker. -/
theorem exists_of_markerOffset?_eq_some (h : markerOffset? head = some offset) :
    ∃ before after, ¬marker <:+: before ∧ head = before ++ (marker ++ after) ∧
      before.length = offset := by
  by_cases hmarker : marker <:+: head
  · obtain ⟨before, after, hbefore, rfl⟩ := exists_first_marker hmarker
    rw [markerOffset?_append hbefore] at h
    exact ⟨before, after, hbefore, rfl, Option.some.inj h⟩
  · rw [markerOffset?_of_no_marker hmarker] at h
    cases h

/-- The search finds the least offset at which a marker stands. -/
theorem markerOffset?_eq_some_iff :
    markerOffset? head = some offset ↔ MarkerAt head offset ∧ ∀ i < offset, ¬MarkerAt head i := by
  constructor
  · intro h
    obtain ⟨before, after, hbefore, rfl, rfl⟩ := exists_of_markerOffset?_eq_some h
    exact ⟨markerAt_length before after, fun i hi => not_markerAt_of_lt hbefore after hi⟩
  · rintro ⟨hat, hleast⟩
    obtain ⟨before, after, hbefore, rfl⟩ := exists_first_marker hat.isInfix
    rw [markerOffset?_append hbefore]
    -- both offsets are the least one
    rcases Nat.lt_trichotomy before.length offset with hlt | heq | hgt
    · exact absurd (markerAt_length before after) (hleast _ hlt)
    · rw [heq]
    · exact absurd hat (not_markerAt_of_lt hbefore after hgt)

theorem markerOffset?_eq_none_iff : markerOffset? head = none ↔ ∀ i, ¬MarkerAt head i := by
  constructor
  · intro h i hat
    obtain ⟨before, after, hbefore, rfl⟩ := exists_first_marker hat.isInfix
    rw [markerOffset?_append hbefore] at h
    cases h
  · intro hnone
    refine markerOffset?_of_no_marker fun hmarker => ?_
    obtain ⟨before, after, -, rfl⟩ := exists_first_marker hmarker
    exact hnone _ (markerAt_length before after)

/-! ## What stands behind the first marker -/

/-- Behind the first marker the head goes on, with a payload and a final byte. -/
def GoesOn (head : List UInt8) : Prop :=
  ∃ before payload final, ¬marker <:+: before ∧ head = before ++ (marker ++ (payload ++ [final]))

/-- The first marker is the end of the head. -/
def EndsInMarker (head : List UInt8) : Prop := ∃ before, ¬marker <:+: before ∧ head = before ++ marker

/-- A head divides at its first marker in one way. -/
theorem first_marker_inj {other otherAfter : List UInt8} (hbefore : ¬marker <:+: before)
    (hother : ¬marker <:+: other)
    (h : before ++ (marker ++ after) = other ++ (marker ++ otherAfter)) :
    before = other ∧ after = otherAfter := by
  have hoffset := markerOffset?_append hbefore after
  rw [h, markerOffset?_append hother] at hoffset
  obtain ⟨rfl, hbehind⟩ := List.append_inj h (Option.some.inj hoffset).symm
  exact ⟨rfl, List.append_cancel_left hbehind⟩

theorem goesOn_iff (h : ¬marker <:+: before) :
    GoesOn (before ++ (marker ++ after)) ↔ after ≠ [] := by
  constructor
  · rintro ⟨other, payload, final, hother, heq⟩
    rw [(first_marker_inj h hother heq).2]
    simp
  · intro hne
    exact ⟨before, after.dropLast, after.getLast hne, h, by rw [List.dropLast_concat_getLast]⟩

theorem endsInMarker_iff (h : ¬marker <:+: before) :
    EndsInMarker (before ++ (marker ++ after)) ↔ after = [] := by
  constructor
  · rintro ⟨other, hother, heq⟩
    have hend : other ++ marker = other ++ (marker ++ []) := by rw [List.append_nil]
    exact (first_marker_inj h hother (heq.trans hend)).2
  · rintro rfl
    exact ⟨before, h, by rw [List.append_nil]⟩

/-! ## The payload of a head -/

theorem findPayload_of_markerOffset?_eq_none (h : markerOffset? head = none) :
    findPayload head = .error .noMarker := by
  rw [findPayload, payload?, h]
  rfl

theorem findPayload_marked (h : ¬marker <:+: before) (after : List UInt8) :
    findPayload (before ++ (marker ++ after)) = .ok after.dropLast := by
  rw [findPayload, payload?_marked h]

theorem findPayload_eq_error_iff {cause : Cause} :
    findPayload head = .error cause ↔ cause = .noMarker ∧ markerOffset? head = none := by
  constructor
  · intro h
    cases hoffset : markerOffset? head with
    | none =>
      rw [findPayload_of_markerOffset?_eq_none hoffset] at h
      exact ⟨(Except.error.inj h).symm, rfl⟩
    | some offset =>
      obtain ⟨before, after, hbefore, rfl, -⟩ := exists_of_markerOffset?_eq_some hoffset
      rw [findPayload_marked hbefore] at h
      cases h
  · rintro ⟨rfl, hnone⟩
    exact findPayload_of_markerOffset?_eq_none hnone

/-- **The payload, for every head.**  The search finds the least offset at which a marker stands,
and there is no payload exactly if there is no such offset.  Else the head either goes on behind
its first marker, and the payload is what stands before the final byte, or it ends there, and the
payload is empty; never both.  The offsets of the payload enclose a part of the head exactly if it
goes on, and the payload is what stands between them.  If it does not, the end is one before the
start, and nothing is sliced. -/
theorem findPayload_exact :
    (∀ head offset, markerOffset? head = some offset ↔
      MarkerAt head offset ∧ ∀ i < offset, ¬MarkerAt head i) ∧
    (∀ head, markerOffset? head = none ↔ ∀ offset, ¬MarkerAt head offset) ∧
    (∀ head cause, findPayload head = .error cause ↔
      cause = .noMarker ∧ markerOffset? head = none) ∧
    Cause.noMarker.stage = "marker" ∧
    (∀ before, ¬marker <:+: before →
      (∀ payload final, findPayload (before ++ (marker ++ (payload ++ [final]))) = .ok payload) ∧
      findPayload (before ++ marker) = .ok []) ∧
    ∀ head offset, markerOffset? head = some offset →
      Xor (GoesOn head) (EndsInMarker head) ∧
      (Encloses head (payloadStart offset) (payloadEnd head) ↔ GoesOn head) ∧
      (GoesOn head →
        findPayload head = .ok ((head.take (payloadEnd head)).drop (payloadStart offset))) ∧
      (EndsInMarker head → payloadEnd head + 1 = payloadStart offset ∧
        slice? head (payloadStart offset) (payloadEnd head) = none ∧ findPayload head = .ok []) := by
  refine ⟨fun head offset => markerOffset?_eq_some_iff, fun head => markerOffset?_eq_none_iff,
    fun head cause => findPayload_eq_error_iff, rfl, fun before h => ⟨fun payload final => ?_, ?_⟩,
    fun head offset hoffset => ?_⟩
  · rw [findPayload_marked h, List.dropLast_concat]
  · have hmarked := findPayload_marked h []
    rwa [List.append_nil, List.dropLast_nil] at hmarked
  · obtain ⟨before, after, h, rfl, rfl⟩ := exists_of_markerOffset?_eq_some hoffset
    rw [goesOn_iff h, endsInMarker_iff h, encloses_marked_iff, findPayload_marked h]
    refine ⟨?_, Iff.rfl, ?_, ?_⟩
    · by_cases hafter : after = []
      · exact .inr ⟨hafter, fun hne => hne hafter⟩
      · exact .inl ⟨hafter, hafter⟩
    · intro hafter
      rw [drop_take_marked before hafter]
    · rintro rfl
      have hinverted : ¬Encloses (before ++ (marker ++ [])) (payloadStart before.length)
          (payloadEnd (before ++ (marker ++ []))) :=
        fun hencloses => (encloses_marked_iff before []).1 hencloses rfl
      exact ⟨payloadEnd_marked before [], slice?_of_not_encloses hinverted, rfl⟩

/-- The offsets do not enclose a part of every head that holds a marker.  In a head that is nothing
but a marker the payload begins behind the last byte and ends before it. -/
theorem not_encloses_bare_marker :
    markerOffset? marker = some 0 ∧ payloadStart 0 = 3 ∧ payloadEnd marker = 2 ∧
      ¬Encloses marker (payloadStart 0) (payloadEnd marker) := by decide

/-- The bytes of a marker without the last one. -/
def halfMarker : List UInt8 := [0x42, 0x46]

/-- What stands before the marker may end in its front, and the payload may hold another one. -/
theorem findPayload_exact_half_marker :
    ¬marker <:+: halfMarker ∧
      findPayload (halfMarker ++ (marker ++ (marker ++ [0x0A]))) = .ok marker ∧
      markerOffset? (halfMarker ++ marker) = some 2 ∧
      Xor (GoesOn (halfMarker ++ marker)) (EndsInMarker (halfMarker ++ marker)) ∧
      ¬GoesOn (halfMarker ++ marker) ∧ findPayload (halfMarker ++ marker) = .ok [] := by
  have hbefore : ¬marker <:+: halfMarker := by decide
  have hoffset : markerOffset? (halfMarker ++ marker) = some 2 := by decide
  have hinverted : ¬Encloses (halfMarker ++ marker) (payloadStart 2)
      (payloadEnd (halfMarker ++ marker)) := by decide
  obtain ⟨-, -, -, -, hmarked, hfound⟩ := findPayload_exact
  obtain ⟨hgoesOn, hends⟩ := hmarked halfMarker hbefore
  obtain ⟨hforms, hencloses, -, -⟩ := hfound _ 2 hoffset
  exact ⟨hbefore, hgoesOn marker 0x0A, hoffset, hforms, fun h => hinverted (hencloses.2 h), hends⟩

end ExposureKit
