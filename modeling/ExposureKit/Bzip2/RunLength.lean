import ExposureKit.Bzip2.Bits

/-!
# Runs of equal bytes

Before a block is sorted, four equal bytes in a row are followed by a byte that
counts how many more of them there are. A counted run is over: the next byte
begins a new one, whatever its value.
-/

namespace ExposureKit.Bzip2

/-- The bytes expanded so far, and the run at their end. -/
structure Expansion where
  /-- The expanded bytes. -/
  bytes : Array UInt8
  /-- The byte of the run. -/
  last : UInt8
  /-- How many times it stands at the end, from 0 to 4. -/
  run : Nat

namespace Expansion

/-- The expansion of nothing. -/
def start : Expansion := ⟨#[], 0, 0⟩

/-- Takes the next byte: the count of a run of four, or a byte of the text. -/
def push (e : Expansion) (b : UInt8) : Expansion :=
  if e.run = 4 then ⟨e.bytes ++ Array.replicate b.toNat e.last, b, 0⟩
  else ⟨e.bytes.push b, b, if e.run ≠ 0 && b == e.last then e.run + 1 else 1⟩

end Expansion

/-- The bytes with every run written out. A run of four without its count is refused. -/
def expandRuns (bytes : Array UInt8) : Except Fault (Array UInt8) :=
  let e := bytes.foldl Expansion.push Expansion.start
  if e.run = 4 then .error .corrupt else .ok e.bytes

end ExposureKit.Bzip2
