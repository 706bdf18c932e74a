/-!
# Reading bits

A compressed stream is read bit by bit, the most significant bit of a byte first.
`Bits` is what is left to read; a `Reader` takes a value off its front or stops
with a `Fault`. What a reader gives depends only on the bits that it takes off
(`Local`), so what follows a stream does not matter to it, and reading never
lengthens what is left, which is why the loops over blocks and over streams end.
-/

namespace ExposureKit.Bzip2

/-- Why a stream cannot be decompressed. -/
inductive Fault where
  /-- The stream does not begin with a stream header. -/
  | headerMissing
  /-- The stream breaks a rule of the format, or a checksum is wrong. -/
  | corrupt
  /-- The input ends before the stream does. -/
  | truncated
  deriving DecidableEq, Repr

/-- The text of a fault. -/
def Fault.message : Fault → String
  | .headerMissing => "bzip2: bz2 header missing"
  | .corrupt => "bzip2: invalid data"
  | .truncated => "decompression not finished but EOF reached"

/-! ## What is left to read -/

/-- Unread input: the rest of a byte already begun, and the bytes after it. -/
structure Bits where
  /-- The unread bits of the byte in hand, in order. -/
  pending : List Bool
  /-- The bytes not begun yet. -/
  bytes : List UInt8

namespace Bits

/-- Input of which nothing has been read. -/
def ofBytes (bytes : List UInt8) : Bits := ⟨[], bytes⟩

/-- The number of unread bits. -/
def size (bits : Bits) : Nat := bits.pending.length + 8 * bits.bytes.length

/-- The bits of a byte, most significant first. -/
def ofByte (b : UInt8) : List Bool := [7, 6, 5, 4, 3, 2, 1, 0].map b.toNat.testBit

/-- The next bit and the input after it; nothing at the end of the input. -/
def next? : Bits → Option (Bool × Bits)
  | ⟨bit :: pending, bytes⟩ => some (bit, ⟨pending, bytes⟩)
  | ⟨[], b :: bytes⟩ => some (b.toNat.testBit 7, ⟨(ofByte b).tail, bytes⟩)
  | ⟨[], []⟩ => none

/-- Taking a bit leaves exactly one bit less. -/
theorem size_of_next? {bits rest : Bits} {bit : Bool} (h : bits.next? = some (bit, rest)) :
    bits.size = rest.size + 1 := by
  rcases bits with ⟨_ | ⟨b, pending⟩, _ | ⟨byte, bytes⟩⟩ <;>
    simp only [next?, Option.some.injEq, Prod.mk.injEq, reduceCtorEq] at h <;>
    obtain ⟨rfl, rfl⟩ := h <;>
    simp only [size, ofByte, List.length_cons, List.length_nil, List.length_map, List.length_tail]
      <;> omega

/-- Taking bits off `bits`, one by one, gives `taken` and leaves `rest`. -/
def Takes (bits : Bits) : (taken : List Bool) → (rest : Bits) → Prop
  | [], rest => rest = bits
  | b :: taken, rest => ∃ mid, bits.next? = some (b, mid) ∧ mid.Takes taken rest

theorem takes_singleton {bits rest : Bits} {b : Bool} :
    bits.Takes [b] rest ↔ bits.next? = some (b, rest) := by
  constructor
  · rintro ⟨mid, hmid, rfl⟩
    exact hmid
  · intro h
    exact ⟨rest, h, rfl⟩

/-- As many bits are gone as were taken. -/
theorem size_of_takes {bits rest : Bits} {taken : List Bool} (h : bits.Takes taken rest) :
    bits.size = rest.size + taken.length := by
  induction taken generalizing bits with
  | nil => cases h; rfl
  | cons b taken ih =>
    obtain ⟨mid, hmid, hrest⟩ := h
    rw [size_of_next? hmid, ih hrest, List.length_cons, Nat.add_assoc]

theorem takes_append {bits mid rest : Bits} {first second : List Bool}
    (hfirst : bits.Takes first mid) (hsecond : mid.Takes second rest) :
    bits.Takes (first ++ second) rest := by
  induction first generalizing bits with
  | nil => cases hfirst; exact hsecond
  | cons b first ih =>
    obtain ⟨next, hnext, hmid⟩ := hfirst
    exact ⟨next, hnext, ih hmid⟩

theorem exists_of_takes_append {bits rest : Bits} {first second : List Bool}
    (h : bits.Takes (first ++ second) rest) :
    ∃ mid, bits.Takes first mid ∧ mid.Takes second rest := by
  induction first generalizing bits with
  | nil => exact ⟨bits, rfl, h⟩
  | cons b first ih =>
    obtain ⟨next, hnext, hrest⟩ := h
    obtain ⟨mid, hmid, hsecond⟩ := ih hrest
    exact ⟨mid, ⟨next, hnext, hmid⟩, hsecond⟩

/-- Taking a bit takes at most one byte, and the bytes after it do not matter. -/
theorem bytes_of_next? {bits rest : Bits} {b : Bool} (h : bits.next? = some (b, rest)) :
    ∃ used, bits.bytes = used ++ rest.bytes ∧
      ∀ more, next? ⟨bits.pending, used ++ more⟩ = some (b, ⟨rest.pending, more⟩) := by
  rcases bits with ⟨_ | ⟨bit, pending⟩, _ | ⟨byte, bytes⟩⟩ <;>
    simp only [next?, Option.some.injEq, Prod.mk.injEq, reduceCtorEq] at h <;>
    obtain ⟨rfl, rfl⟩ := h
  · exact ⟨[byte], rfl, fun more => rfl⟩
  · exact ⟨[], rfl, fun more => rfl⟩
  · exact ⟨[], rfl, fun more => rfl⟩

/-- Bits are taken off bytes at the front, and the bytes after them do not matter. -/
theorem bytes_of_takes {bits rest : Bits} {taken : List Bool} (h : bits.Takes taken rest) :
    ∃ used, bits.bytes = used ++ rest.bytes ∧
      ∀ more, Takes ⟨bits.pending, used ++ more⟩ taken ⟨rest.pending, more⟩ := by
  induction taken generalizing bits with
  | nil => cases h; exact ⟨[], rfl, fun more => rfl⟩
  | cons b taken ih =>
    obtain ⟨mid, hmid, hrest⟩ := h
    obtain ⟨first, hfirst, hnext⟩ := bytes_of_next? hmid
    obtain ⟨second, hsecond, htakes⟩ := ih hrest
    refine ⟨first ++ second, ?_, fun more => ?_⟩
    · rw [hfirst, hsecond, List.append_assoc]
    · rw [List.append_assoc]
      exact ⟨_, hnext (second ++ more), htakes more⟩

end Bits

/-! ## Readers -/

/-- Takes a value off the front of the input, or stops with a fault. -/
def Reader (α : Type) := Bits → Except Fault (α × Bits)

namespace Reader

/-- Reads nothing. -/
@[inline] protected def pure {α : Type} (a : α) : Reader α := fun bits => .ok (a, bits)

/-- Reads one value and, depending on it, the next. -/
@[inline] protected def bind {α β : Type} (r : Reader α) (f : α → Reader β) : Reader β :=
  fun bits =>
    match r bits with
    | .ok (a, rest) => f a rest
    | .error fault => .error fault

@[always_inline]
instance : Monad Reader where
  pure := Reader.pure
  bind := Reader.bind

/-- Stops with a fault. -/
def stop {α : Type} (fault : Fault) : Reader α := fun _ => .error fault

/-- Goes on only if the condition holds. -/
@[inline] def check (condition : Bool) (fault : Fault) : Reader Unit :=
  if condition then Reader.pure () else stop fault

/-- The next bit. -/
def bit : Reader Bool := fun bits =>
  match bits.next? with
  | some r => .ok r
  | none => .error .truncated

/-- The number that continues `high` by `count` further bits. -/
def numberFrom (high : Nat) : (count : Nat) → Reader Nat
  | 0 => Reader.pure high
  | count + 1 => Reader.bind bit fun b => numberFrom (2 * high + b.toNat) count

/-- The number written by the next `count` bits. -/
def number (count : Nat) : Reader Nat := numberFrom 0 count

/-- Reads by `r` as often as `count` says; `done` holds what was read before, the
latest first. -/
def timesFrom {α : Type} (r : Reader α) (done : List α) (count : Nat) (bits : Bits) :
    Except Fault (List α × Bits) :=
  match count with
  | 0 => .ok (done.reverse, bits)
  | count + 1 =>
    match r bits with
    | .ok (a, rest) => timesFrom r (a :: done) count rest
    | .error fault => .error fault

/-- Reads by `r` as often as `count` says. -/
def times {α : Type} (r : Reader α) (count : Nat) : Reader (List α) := timesFrom r [] count

/-- A reader in two parts gives a value exactly when both parts do. -/
theorem bind_eq_ok {α β : Type} {r : Reader α} {f : α → Reader β} {bits rest : Bits} {b : β} :
    Reader.bind r f bits = .ok (b, rest) ↔
      ∃ a mid, r bits = .ok (a, mid) ∧ f a mid = .ok (b, rest) := by
  unfold Reader.bind
  cases hr : r bits with
  | error fault => simp
  | ok read =>
    obtain ⟨a, mid⟩ := read
    constructor
    · intro h
      exact ⟨a, mid, rfl, h⟩
    · rintro ⟨a', mid', heq, h⟩
      cases heq
      exact h

/-! ## Reading is local -/

/-- What `r` gives depends only on the bits that it takes off: any other input that
begins with the same bits gives the same. -/
def Local {α : Type} (r : Reader α) : Prop :=
  ∀ ⦃bits rest : Bits⦄ ⦃a : α⦄, r bits = .ok (a, rest) →
    ∃ taken, bits.Takes taken rest ∧
      ∀ ⦃bits' rest' : Bits⦄, bits'.Takes taken rest' → r bits' = .ok (a, rest')

theorem Local.size_le {α : Type} {r : Reader α} (hr : Local r) {bits rest : Bits} {a : α}
    (h : r bits = .ok (a, rest)) : rest.size ≤ bits.size := by
  obtain ⟨taken, htaken, -⟩ := hr h
  have := Bits.size_of_takes htaken
  omega

theorem Local.pure {α : Type} (a : α) : Local (Reader.pure a) := by
  rintro bits rest b ⟨rfl, rfl⟩
  refine ⟨[], rfl, ?_⟩
  rintro bits' rest' rfl
  rfl

theorem Local.stop {α : Type} (fault : Fault) : Local (stop fault : Reader α) := by
  intro bits rest a h
  cases h

theorem Local.bind {α β : Type} {r : Reader α} {f : α → Reader β} (hr : Local r)
    (hf : ∀ a, Local (f a)) : Local (Reader.bind r f) := by
  intro bits rest b h
  obtain ⟨a, mid, hmid, hrest⟩ := bind_eq_ok.1 h
  obtain ⟨first, hfirst, hagain⟩ := hr hmid
  obtain ⟨second, hsecond, hagain'⟩ := hf a hrest
  refine ⟨first ++ second, Bits.takes_append hfirst hsecond, fun bits' rest' htakes => ?_⟩
  obtain ⟨mid', hmid', hrest'⟩ := Bits.exists_of_takes_append htakes
  exact bind_eq_ok.2 ⟨a, mid', hagain hmid', hagain' hrest'⟩

theorem Local.check (condition : Bool) (fault : Fault) : Local (check condition fault) := by
  unfold Reader.check
  split
  · exact .pure ()
  · exact .stop fault

theorem bit_of_next? {bits rest : Bits} {b : Bool} (h : bits.next? = some (b, rest)) :
    bit bits = .ok (b, rest) := by
  rw [bit, h]

theorem next?_of_bit {bits rest : Bits} {b : Bool} (h : bit bits = .ok (b, rest)) :
    bits.next? = some (b, rest) := by
  rw [bit] at h
  split at h
  · next r hr => cases h; exact hr
  · cases h

theorem Local.bit : Local bit := by
  intro bits rest b h
  refine ⟨[b], Bits.takes_singleton.2 (next?_of_bit h), fun bits' rest' htakes => ?_⟩
  exact bit_of_next? (Bits.takes_singleton.1 htakes)

theorem Local.numberFrom (high count : Nat) : Local (numberFrom high count) := by
  induction count generalizing high with
  | zero => exact .pure high
  | succ count ih => exact .bind .bit fun _ => ih _

theorem Local.number (count : Nat) : Local (number count) := .numberFrom 0 count

/-- Reading once more is reading once and then the rest. -/
theorem timesFrom_succ {α : Type} (r : Reader α) (done : List α) (count : Nat) :
    timesFrom r done (count + 1) = Reader.bind r fun a => timesFrom r (a :: done) count := rfl

theorem Local.timesFrom {α : Type} {r : Reader α} (hr : Local r) (done : List α)
    (count : Nat) : Local (timesFrom r done count) := by
  induction count generalizing done with
  | zero => exact .pure done.reverse
  | succ count ih =>
    rw [timesFrom_succ]
    exact .bind hr fun a => ih (a :: done)

theorem Local.times {α : Type} {r : Reader α} (hr : Local r) (count : Nat) :
    Local (times r count) := .timesFrom hr [] count

/-! ## Reading shortens the input -/

/-- What `r` leaves is shorter than what it was given. -/
def Consumes {α : Type} (r : Reader α) : Prop :=
  ∀ ⦃bits rest : Bits⦄ ⦃a : α⦄, r bits = .ok (a, rest) → rest.size < bits.size

theorem Consumes.bind {α β : Type} {r : Reader α} {f : α → Reader β} (hr : Consumes r)
    (hf : ∀ a, Local (f a)) : Consumes (Reader.bind r f) := by
  intro bits rest b h
  obtain ⟨a, mid, hmid, hrest⟩ := bind_eq_ok.1 h
  exact Nat.lt_of_le_of_lt ((hf a).size_le hrest) (hr hmid)

theorem Consumes.bit : Consumes bit := by
  intro bits rest b h
  have := Bits.size_of_next? (next?_of_bit h)
  omega

theorem Consumes.number {count : Nat} (hcount : 0 < count) : Consumes (number count) := by
  obtain ⟨count, rfl⟩ : ∃ n, count = n + 1 := ⟨count - 1, by omega⟩
  exact .bind .bit fun _ => .numberFrom _ count

end Reader

end ExposureKit.Bzip2
