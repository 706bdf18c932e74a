/-!
# The marked payload of a file head

An exposure file may carry a message in its first `headLimit` bytes. The encoded
message is announced by `marker`; it runs from the end of the first marker up to,
and not including, the very last byte that was read.
-/

namespace ExposureKit

/-- How many bytes from the start of a file are searched. -/
def headLimit : Nat := 4096

/-- The three bytes `BF=` that announce a payload. -/
def marker : List UInt8 := [0x42, 0x46, 0x3D]

/-! ## Finding the marker -/

/-- The offset of the first marker of `bytes`, counted from `start`. -/
def markerOffsetFrom (start : Nat) : List UInt8 → Option Nat
  | [] => none
  | b :: bytes =>
    if marker.isPrefixOf (b :: bytes) then some start else markerOffsetFrom (start + 1) bytes

/-- The offset of the first marker, if there is one. -/
def markerOffset? (bytes : List UInt8) : Option Nat := markerOffsetFrom 0 bytes

/-- Counting from elsewhere shifts the offset that is found. -/
theorem markerOffsetFrom_eq_map (start : Nat) (bytes : List UInt8) :
    markerOffsetFrom start bytes = (markerOffset? bytes).map (start + ·) := by
  suffices h : ∀ base, markerOffsetFrom (start + base) bytes =
      (markerOffsetFrom base bytes).map (start + ·) from h 0
  induction bytes with
  | nil => intro base; rfl
  | cons b bytes ih =>
    intro base
    rw [markerOffsetFrom, markerOffsetFrom]
    split
    · rfl
    · exact ih (base + 1)

/-! ## Slicing -/

/-- Two offsets that enclose a part of `bytes`: they are in order, and neither is behind the end. -/
def Encloses (bytes : List UInt8) (first last : Nat) : Prop := first ≤ last ∧ last ≤ bytes.length

instance (bytes : List UInt8) (first last : Nat) : Decidable (Encloses bytes first last) :=
  inferInstanceAs (Decidable (_ ∧ _))

/-- The bytes from offset `first` up to, not including, offset `last`, where these enclose a part
of `bytes`. -/
def slice? (bytes : List UInt8) (first last : Nat) : Option (List UInt8) :=
  if Encloses bytes first last then some ((bytes.take last).drop first) else none

theorem slice?_of_encloses {bytes : List UInt8} {first last : Nat} (h : Encloses bytes first last) :
    slice? bytes first last = some ((bytes.take last).drop first) :=
  if_pos h

theorem slice?_of_not_encloses {bytes : List UInt8} {first last : Nat}
    (h : ¬Encloses bytes first last) : slice? bytes first last = none :=
  if_neg h

/-- Where a payload begins: behind the marker at this offset. -/
def payloadStart (offset : Nat) : Nat := offset + marker.length

/-- Where the payload of a file head ends: before the final byte. -/
def payloadEnd (head : List UInt8) : Nat := head.length - 1

/-- What stands between a marker and the final byte. A marker that ends the head is followed by
nothing, and then the end of the payload is before its start. -/
def payloadBehind (head : List UInt8) (offset : Nat) : List UInt8 :=
  (slice? head (payloadStart offset) (payloadEnd head)).getD []

/-- The encoded message of a file head: what stands between the first marker and
the final byte. A marker that ends the head announces an empty payload. -/
def payload? (head : List UInt8) : Option (List UInt8) :=
  (markerOffset? head).map (payloadBehind head)

end ExposureKit
