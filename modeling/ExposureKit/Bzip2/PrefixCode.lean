import ExposureKit.Bzip2.Bits

/-!
# Canonical prefix codes

A code is given by the length of each symbol's code word. Words of one length are
consecutive numbers, in the order of their symbols, and follow twice the number
after the last shorter word. A word is read bit by bit: after `n` bits it is
complete as soon as it lies below the end of the words of length `n`.
-/

namespace ExposureKit.Bzip2

/-- The most bits of a code word. -/
def maxCodeLength : Nat := 20

/-- A canonical code, as it is read. -/
structure PrefixCode where
  /-- How many words there are of each length, from one bit on. -/
  counts : List Nat
  /-- The symbols, by the length of their words and then by their own order. -/
  symbols : Array Nat

namespace PrefixCode

/-- The code in which symbol `i` has a word of `lengths[i]` bits. -/
def ofLengths (lengths : List Nat) : PrefixCode :=
  let sizes := (List.range maxCodeLength).map (· + 1)
  { counts := sizes.map lengths.count
    symbols := (sizes.flatMap fun size => lengths.zipIdx.filterMap fun (length, symbol) =>
      if length = size then some symbol else none).toArray }

/-- Reads on, when the bits of `word` have been read and are no word yet: the
shorter words are those of the first `skipped` symbols, and the words of the next
length begin at `first`. -/
def readFrom (symbols : Array Nat) (word first skipped : Nat) : List Nat → Reader Nat
  | [] => Reader.bind Reader.bit fun _ => Reader.stop .corrupt
  | count :: counts => Reader.bind Reader.bit fun b =>
    let word := 2 * word + b.toNat
    if word < first + count then
      match symbols[skipped + (word - first)]? with
      | some symbol => Reader.pure symbol
      | none => Reader.stop .corrupt
    else readFrom symbols word (2 * (first + count)) (skipped + count) counts

/-- Reads the symbol of the next code word. Twenty bits that are no word make the
stream corrupt, which is noticed one bit later. -/
def read (code : PrefixCode) : Reader Nat := readFrom code.symbols 0 0 0 code.counts

theorem local_readFrom (symbols : Array Nat) (word first skipped : Nat) (counts : List Nat) :
    (readFrom symbols word first skipped counts).Local := by
  induction counts generalizing word first skipped with
  | nil => exact .bind .bit fun _ => .stop .corrupt
  | cons count counts ih =>
    refine .bind .bit fun b => ?_
    dsimp only
    split
    · split
      · exact .pure _
      · exact .stop .corrupt
    · exact ih _ _ _

theorem local_read (code : PrefixCode) : code.read.Local := local_readFrom ..

end PrefixCode

/-! ## Code lengths -/

/-- Reads one code length, starting from `length`: a clear bit ends it, a set bit
is followed by a clear bit for one more and a set bit for one less. The length has
to stay between 1 and `maxCodeLength` on its way. -/
def codeLength (length : Nat) (bits : Bits) : Except Fault (Nat × Bits) :=
  if length < 1 || maxCodeLength < length then .error .corrupt
  else match _h : bits.next? with
    | none => .error .truncated
    | some (false, rest) => .ok (length, rest)
    | some (true, rest) =>
      match _h' : rest.next? with
      | none => .error .truncated
      | some (down, rest) => codeLength (if down then length - 1 else length + 1) rest
termination_by bits.size
decreasing_by
  have := Bits.size_of_next? _h
  have := Bits.size_of_next? _h'
  omega

/-- A clear bit ends a code length. -/
theorem codeLength_of_clear {length : Nat} {bits rest : Bits}
    (hlength : ¬(length < 1 || maxCodeLength < length) = true)
    (hbit : bits.next? = some (false, rest)) : codeLength length bits = .ok (length, rest) := by
  rw [codeLength, if_neg hlength]
  split <;> simp_all

/-- A set bit is followed by the direction in which a code length goes on. -/
theorem codeLength_of_set {length : Nat} {bits mid rest : Bits} {down : Bool}
    (hlength : ¬(length < 1 || maxCodeLength < length) = true)
    (hbit : bits.next? = some (true, mid)) (hdown : mid.next? = some (down, rest)) :
    codeLength length bits = codeLength (if down then length - 1 else length + 1) rest := by
  rw [codeLength, if_neg hlength]
  split
  · simp_all
  · simp_all
  · next mid' hmid' =>
    obtain rfl : mid' = mid := by simp_all
    split <;> simp_all

theorem local_codeLength (length : Nat) : Reader.Local (codeLength length) := by
  intro bits rest n h
  fun_induction codeLength length bits with
  | case1 => cases h
  | case2 => cases h
  | case3 length bits hlength rest' hbit =>
    cases h
    refine ⟨[false], Bits.takes_singleton.2 hbit, fun bits' rest' htakes => ?_⟩
    exact codeLength_of_clear hlength (Bits.takes_singleton.1 htakes)
  | case4 => cases h
  | case5 length bits hlength mid hbit down rest' hdown ih =>
    obtain ⟨taken, htaken, hagain⟩ := ih h
    refine ⟨true :: down :: taken, ⟨mid, hbit, rest', hdown, htaken⟩, ?_⟩
    rintro bits' rest'' ⟨mid', hbit', mid'', hdown', htakes⟩
    rw [codeLength_of_set hlength hbit' hdown']
    exact hagain htakes

/-- Reads the lengths of `count` symbols: each length is the start of the next. -/
def codeLengthsFrom (start : Nat) : (count : Nat) → Reader (List Nat)
  | 0 => Reader.pure []
  | count + 1 => Reader.bind (codeLength start) fun length =>
    Reader.bind (codeLengthsFrom length count) fun lengths => Reader.pure (length :: lengths)

/-- Reads the code of `count` symbols: five bits for the start, then the lengths. -/
def PrefixCode.reader (count : Nat) : Reader PrefixCode :=
  Reader.bind (Reader.number 5) fun start =>
    Reader.bind (codeLengthsFrom start count) fun lengths =>
      Reader.pure (PrefixCode.ofLengths lengths)

theorem local_codeLengthsFrom (start count : Nat) : (codeLengthsFrom start count).Local := by
  induction count generalizing start with
  | zero => exact .pure []
  | succ count ih =>
    exact .bind (local_codeLength start) fun _ => .bind (ih _) fun _ => .pure _

theorem PrefixCode.local_reader (count : Nat) : (PrefixCode.reader count).Local :=
  .bind (.number 5) fun _ => .bind (local_codeLengthsFrom ..) fun _ => .pure _

end ExposureKit.Bzip2
