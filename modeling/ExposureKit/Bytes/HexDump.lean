import ExposureKit.Bytes.Hex

/-!
# Hex dumps

The first `rowLength * rowLimit` bytes of a buffer as rows of sixteen: the offset
in eight hexadecimal digits, the bytes in hexadecimal, padded where the last row
is short, and between bars a gutter that shows printable ASCII as it is and every
other byte as a dot. `readRows` reads the bytes back by their columns; the gutter
may look like anything.
-/

namespace ExposureKit.HexDump

/-- Bytes in a full row. -/
def rowLength : Nat := 16

/-- The most rows that a dump has. -/
def rowLimit : Nat := 16

/-- What the gutter shows for a byte. -/
def gutterChar (b : UInt8) : Char :=
  if 0x20 ≤ b ∧ b ≤ 0x7E then Char.ofNat b.toNat else '.'

/-- The row that starts at `offset`, without its line feed. -/
def row (offset : Nat) (bytes : List UInt8) : List Char :=
  Hex.digits Hex.upperDigit 8 offset ++ [':', ' ']
    ++ bytes.flatMap (fun b => Hex.upperByte b ++ [' '])
    ++ List.replicate (3 * (rowLength - bytes.length)) ' '
    ++ '|' :: bytes.map gutterChar ++ ['|']

/-- At most `count` rows of `bytes`, the first of them at `offset`. -/
def rowsFrom : (count : Nat) → (offset : Nat) → List UInt8 → List (List Char)
  | 0, _, _ => []
  | _, _, [] => []
  | count + 1, offset, bytes =>
    row offset (bytes.take rowLength)
      :: rowsFrom count (offset + rowLength) (bytes.drop rowLength)

/-- The rows of the dump of a buffer. -/
def rows (bytes : List UInt8) : List (List Char) := rowsFrom rowLimit 0 bytes

/-- The dump of a buffer: its rows, a line feed after each. -/
def ofBytes (bytes : List UInt8) : List Char := (rows bytes).flatMap (· ++ ['\n'])

/-! ## Reading -/

/-- The column in which the bytes of a row begin. -/
def byteColumn : Nat := 10

/-- The column of the bar that opens the gutter. -/
def barColumn : Nat := byteColumn + 3 * rowLength

/-- The bytes in cells of two digits and a space; the first other cell ends them. -/
def readCells : List Char → List UInt8
  | high :: low :: ' ' :: cells =>
    match Hex.byte? high low with
    | some b => b :: readCells cells
    | none => []
  | _ => []

/-- The bytes of a row, by its columns. -/
def readRow (row : List Char) : List UInt8 :=
  readCells ((row.take barColumn).drop byteColumn)

/-- The bytes of rows, in order. -/
def readRows (rows : List (List Char)) : List UInt8 := rows.flatMap readRow

end ExposureKit.HexDump
