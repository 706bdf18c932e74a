/-!
# From the last column back to the text

A block is stored as the last column of its sorted rotations. Equal bytes keep
their order between the first and the last column, so following the `k`-th row's
first byte to its place in the last column walks through the text from any row
whose position is known.
-/

namespace ExposureKit.Bzip2

/-- How often each byte occurs. -/
def byteCounts (column : Array UInt8) : Array Nat :=
  column.foldl (fun counts b => counts.modify b.toNat (· + 1)) (Array.replicate 256 0)

/-- For each byte, the first row that begins with it. -/
def firstRows (counts : Array Nat) : Array Nat :=
  (counts.foldl (fun (state : Array Nat × Nat) count => (state.1.push state.2, state.2 + count))
    (#[], 0)).1

/-- For each row, the place of its first byte in the last column. -/
def successors (column : Array UInt8) : Array Nat :=
  (column.foldl (fun (state : Array Nat × Array Nat × Nat) b =>
    let (next, rows, place) := state
    let row := rows.getD b.toNat 0
    (next.set! row place, rows.set! b.toNat (row + 1), place + 1))
    (Array.replicate column.size 0, firstRows (byteCounts column), 0)).1

/-- Writes the last bytes of `count` rows, going from `place` along the successors. -/
def walk (column : Array UInt8) (next : Array Nat) (place : Nat) (written : Array UInt8) :
    (count : Nat) → Array UInt8
  | 0 => written
  | count + 1 =>
    walk column next (next.getD place 0) (written.push (column.getD place 0)) count

/-- The text whose sorted rotations have this last column and have the text itself
in row `origin`. -/
def unsort (column : Array UInt8) (origin : Nat) : Array UInt8 :=
  let next := successors column
  walk column next (next.getD origin 0) (Array.emptyWithCapacity column.size) column.size

end ExposureKit.Bzip2
