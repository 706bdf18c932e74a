import Mathlib
import ExposureKit.Bytes.HexDump
import ExposureKit.Proofs.Bytes.LiteralRoundTrip
import ExposureKit.Text.Split

/-!
# Dumps read by their columns

In each row of a dump the bytes begin in one column and the gutter in another, and padding
keeps these columns where they are when the row is short.  So the bytes are found between them,
whatever the gutter shows, digits and bars among it.

`Pictures` says what stands in which column of a line.  `pictures_row` is the step, for one row,
and `pictures_rowsFrom` goes through the rows.

The main result is `ofBytes_columns`.
-/

namespace ExposureKit

/-! ## Upper-case digits -/

namespace Hex

/-- The upper-case digits, each in the place of its value. -/
def upperAlphabet : List Char :=
  ['0', '1', '2', '3', '4', '5', '6', '7', '8', '9', 'A', 'B', 'C', 'D', 'E', 'F']

/-- The number that upper-case digits write, the most significant first. -/
def upperValue (text : List Char) : Nat :=
  text.foldl (fun n c => 16 * n + upperAlphabet.idxOf c) 0

theorem upperDigit_mem {n : Nat} (hn : n < 16) : upperDigit n ∈ upperAlphabet := by
  have hdigits : ∀ n < 16, upperDigit n ∈ upperAlphabet := by decide
  exact hdigits n hn

theorem idxOf_upperDigit {n : Nat} (hn : n < 16) : upperAlphabet.idxOf (upperDigit n) = n := by
  have hdigits : ∀ n < 16, upperAlphabet.idxOf (upperDigit n) = n := by decide
  exact hdigits n hn

theorem mem_digits_upperDigit {width n : Nat} {c : Char} (hc : c ∈ digits upperDigit width n) :
    c ∈ upperAlphabet := by
  induction width generalizing n with
  | zero => cases hc
  | succ width ih =>
    rcases List.mem_append.1 hc with hc | hc
    · exact ih hc
    · rw [List.mem_singleton.1 hc]
      exact upperDigit_mem (Nat.mod_lt n (by decide))

/-- So many digits tell the number, if it is not too large for them. -/
theorem upperValue_digits {width n : Nat} (hn : n < 16 ^ width) :
    upperValue (digits upperDigit width n) = n := by
  induction width generalizing n with
  | zero =>
    rw [Nat.pow_zero, Nat.lt_one_iff] at hn
    rw [hn]
    rfl
  | succ width ih =>
    have hfront : n / 16 < 16 ^ width := by
      rw [Nat.pow_succ] at hn
      exact Nat.div_lt_of_lt_mul (by omega)
    have hvalue := ih hfront
    unfold upperValue at hvalue
    rw [digits, upperValue, List.foldl_append, hvalue, List.foldl_cons, List.foldl_nil,
      idxOf_upperDigit (Nat.mod_lt n (by decide)), Nat.div_add_mod]

/-- What is no digit does not stand among digits. -/
theorem notMem_digits_upperDigit {c : Char} (hc : c ∉ upperAlphabet) (width n : Nat) :
    c ∉ digits upperDigit width n :=
  fun hmem => hc (mem_digits_upperDigit hmem)

end Hex

namespace HexDump

/-! ## What a line pictures -/

/-- A character of the gutter stands for this byte: it is the byte's own, if that is printable,
and else a dot. -/
def StandsFor (c : Char) (b : UInt8) : Prop :=
  if 0x20 ≤ b ∧ b ≤ 0x7E then c.toNat = b.toNat else c = '.'

/-- A line pictures bytes that begin at `offset`.  Columns are counted from 0. -/
structure Pictures (line : List Char) (offset : Nat) (bytes : List UInt8) : Prop where
  /-- The line begins with eight upper-case digits, which tell the offset. -/
  offset_digits : (line.take 8).length = 8 ∧ (∀ c ∈ line.take 8, c ∈ Hex.upperAlphabet) ∧
    Hex.upperValue (line.take 8) = offset
  /-- The first bar stands in column 58. -/
  bar : (line.drop 58).head? = some '|' ∧ '|' ∉ line.take 58
  /-- Behind it the gutter shows each byte by one character, up to the other bar. -/
  gutter : ∃ gutter, line.drop 59 = gutter ++ ['|'] ∧ List.Forall₂ StandsFor gutter bytes
  /-- The bytes are read from columns 10 to 57. -/
  cells : readCells ((line.take 58).drop 10) = bytes

/-! ## One row -/

/-- The digits of bytes, a space after those of each. -/
def cells (bytes : List UInt8) : List Char := bytes.flatMap fun b => Hex.upperByte b ++ [' ']

/-- What stands between the offset and the gutter: cells, and spaces in the place of others. -/
def area (bytes : List UInt8) : List Char :=
  cells bytes ++ List.replicate (3 * (rowLength - bytes.length)) ' '

variable {bytes : List UInt8} {offset : Nat}

theorem row_eq (offset : Nat) (bytes : List UInt8) :
    row offset bytes = (Hex.digits Hex.upperDigit 8 offset ++ [':', ' ']) ++
      (area bytes ++ '|' :: (bytes.map gutterChar ++ ['|'])) := by
  unfold row area cells
  simp only [List.append_assoc, List.cons_append]

theorem cells_cons (b : UInt8) (bytes : List UInt8) :
    cells (b :: bytes) =
      Hex.upperDigit (b.toNat / 16) :: Hex.upperDigit (b.toNat % 16) :: ' ' :: cells bytes := by
  rw [cells, List.flatMap_cons, Hex.upperByte_eq]
  rfl

theorem length_cells (bytes : List UInt8) : (cells bytes).length = 3 * bytes.length := by
  induction bytes with
  | nil => rfl
  | cons b bytes ih =>
    rw [cells_cons, List.length_cons, List.length_cons, List.length_cons, ih, List.length_cons]
    omega

/-- Padding makes up for the cells that a short row lacks. -/
theorem length_area (hbytes : bytes.length ≤ rowLength) : (area bytes).length = 3 * rowLength := by
  rw [area, List.length_append, length_cells, List.length_replicate]
  omega

/-- Spaces are no cells. -/
theorem readCells_spaces (count : Nat) : readCells (List.replicate count ' ') = [] := by
  match count with
  | 0 => rfl
  | 1 => rfl
  | 2 => rfl
  | count + 3 =>
    rw [List.replicate_succ, List.replicate_succ, List.replicate_succ, readCells]
    rfl

theorem readCells_area (bytes : List UInt8) : readCells (area bytes) = bytes := by
  have hcells : ∀ count, readCells (cells bytes ++ List.replicate count ' ') = bytes := by
    intro count
    induction bytes with
    | nil => exact readCells_spaces count
    | cons b bytes ih =>
      rw [cells_cons, List.cons_append, List.cons_append, List.cons_append, readCells,
        Hex.byte?_upperDigit]
      exact congrArg (b :: ·) ih
  exact hcells _

/-- Only digits and spaces stand in the area of the bytes. -/
theorem notMem_area {c : Char} (hdigit : c ∉ Hex.upperAlphabet) (hspace : c ≠ ' ')
    (bytes : List UInt8) : c ∉ area bytes := by
  intro hc
  rcases List.mem_append.1 hc with hc | hc
  · obtain ⟨b, -, hc⟩ := List.mem_flatMap.1 hc
    rcases List.mem_append.1 hc with hc | hc
    · exact Hex.notMem_digits_upperDigit hdigit _ _ hc
    · exact hspace (List.mem_singleton.1 hc)
  · exact hspace (List.eq_of_mem_replicate hc)

theorem standsFor_gutterChar (b : UInt8) : StandsFor (gutterChar b) b := by
  unfold StandsFor gutterChar
  split
  · exact Literal.toNat_charOf b
  · rfl

theorem StandsFor.ne_lineFeed {c : Char} {b : UInt8} (h : StandsFor c b) : c ≠ '\n' := by
  rintro rfl
  unfold StandsFor at h
  split at h
  · next hb =>
    have hlow : (0x20 : UInt8).toNat ≤ b.toNat := UInt8.le_iff_toNat_le.1 hb.1
    rw [← h] at hlow
    exact absurd hlow (by decide)
  · cases h

theorem forall₂_gutterChar (bytes : List UInt8) :
    List.Forall₂ StandsFor (bytes.map gutterChar) bytes :=
  List.forall₂_map_left_iff.2 (List.forall₂_same.2 fun b _ => standsFor_gutterChar b)

theorem length_front (offset : Nat) :
    (Hex.digits Hex.upperDigit 8 offset ++ [':', ' ']).length = byteColumn := by
  rw [List.length_append, Hex.length_digits]
  rfl

/-- The columns of a row are those of a full one. -/
theorem take_row (hbytes : bytes.length ≤ rowLength) (offset : Nat) :
    (row offset bytes).take barColumn =
      (Hex.digits Hex.upperDigit 8 offset ++ [':', ' ']) ++ area bytes := by
  rw [row_eq, ← List.append_assoc]
  refine List.take_left' ?_
  rw [List.length_append, length_front, length_area hbytes]
  rfl

theorem drop_row (hbytes : bytes.length ≤ rowLength) (offset : Nat) :
    (row offset bytes).drop barColumn = '|' :: (bytes.map gutterChar ++ ['|']) := by
  rw [row_eq, ← List.append_assoc]
  refine List.drop_left' ?_
  rw [List.length_append, length_front, length_area hbytes]
  rfl

theorem readRow_row (hbytes : bytes.length ≤ rowLength) (offset : Nat) :
    readRow (row offset bytes) = bytes := by
  rw [readRow, take_row hbytes, List.drop_left' (length_front offset), readCells_area]

/-- What stands in the columns of a row. -/
theorem pictures_row (hbytes : bytes.length ≤ rowLength) (hoffset : offset < 16 ^ 8) :
    Pictures (row offset bytes) offset bytes := by
  have hdigits : (row offset bytes).take 8 = Hex.digits Hex.upperDigit 8 offset := by
    rw [row_eq, List.append_assoc]
    exact List.take_left' (Hex.length_digits _ _ _)
  have hfront := take_row hbytes offset
  have hback := drop_row hbytes offset
  refine ⟨⟨?_, ?_, ?_⟩, ⟨?_, ?_⟩, ⟨bytes.map gutterChar, ?_, forall₂_gutterChar bytes⟩,
    readRow_row hbytes offset⟩
  · rw [hdigits, Hex.length_digits]
  · rw [hdigits]
    exact fun c hc => Hex.mem_digits_upperDigit hc
  · rw [hdigits, Hex.upperValue_digits hoffset]
  · exact congrArg List.head? hback
  · intro hbar
    rcases List.mem_append.1 (hfront ▸ hbar) with hbar | hbar
    · rcases List.mem_append.1 hbar with hbar | hbar
      · exact Hex.notMem_digits_upperDigit (by decide) _ _ hbar
      · exact absurd hbar (by decide)
    · exact notMem_area (by decide) (by decide) bytes hbar
  · rw [← List.tail_drop]
    exact congrArg List.tail hback

/-- A row is one line. -/
theorem lineFeed_notMem_row (offset : Nat) (bytes : List UInt8) : '\n' ∉ row offset bytes := by
  rw [row_eq]
  intro hmem
  rcases List.mem_append.1 hmem with hmem | hmem
  · rcases List.mem_append.1 hmem with hmem | hmem
    · exact Hex.notMem_digits_upperDigit (by decide) _ _ hmem
    · exact absurd hmem (by decide)
  · rcases List.mem_append.1 hmem with hmem | hmem
    · exact notMem_area (by decide) (by decide) bytes hmem
    · rcases List.mem_cons.1 hmem with hmem | hmem
      · exact absurd hmem (by decide)
      · rcases List.mem_append.1 hmem with hmem | hmem
        · obtain ⟨b, -, hb⟩ := List.mem_map.1 hmem
          exact (standsFor_gutterChar b).ne_lineFeed hb
        · exact absurd hmem (by decide)

/-! ## All rows -/

variable (count : Nat)

theorem rowsFrom_nil (offset : Nat) : rowsFrom count offset [] = [] := by
  cases count <;> rfl

theorem rowsFrom_succ (offset : Nat) (hbytes : bytes ≠ []) :
    rowsFrom (count + 1) offset bytes =
      row offset (bytes.take rowLength) ::
        rowsFrom count (offset + rowLength) (bytes.drop rowLength) := by
  cases bytes with
  | nil => exact absurd rfl hbytes
  | cons b bytes => rfl

theorem length_rowsFrom (offset : Nat) (bytes : List UInt8) :
    (rowsFrom count offset bytes).length = min count (bytes.length ⌈/⌉ rowLength) := by
  induction count generalizing offset bytes with
  | zero => simp [rowsFrom]
  | succ count ih =>
    rcases eq_or_ne bytes [] with rfl | hbytes
    · rw [rowsFrom_nil]
      rfl
    · have hpos := List.length_pos_iff.2 hbytes
      rw [rowsFrom_succ count offset hbytes, List.length_cons, ih, List.length_drop,
        Nat.ceilDiv_eq_add_pred_div, Nat.ceilDiv_eq_add_pred_div]
      unfold rowLength
      omega

/-- No more bytes are dumped than have their place in so many rows. -/
theorem rowsFrom_take (offset : Nat) (bytes : List UInt8) :
    rowsFrom count offset (bytes.take (rowLength * count)) = rowsFrom count offset bytes := by
  induction count generalizing offset bytes with
  | zero => rfl
  | succ count ih =>
    rcases eq_or_ne bytes [] with rfl | hbytes
    · rw [List.take_nil]
    · have hne : bytes.take (rowLength * (count + 1)) ≠ [] := by
        rw [Ne, List.take_eq_nil_iff, not_or]
        exact ⟨by unfold rowLength; omega, hbytes⟩
      rw [rowsFrom_succ count offset hne, rowsFrom_succ count offset hbytes, List.take_take,
        List.drop_take, Nat.mul_succ, Nat.add_sub_cancel, ih, Nat.min_eq_left (by omega)]

/-- Each row pictures the bytes that begin at its offset. -/
theorem pictures_rowsFrom {i : Nat} {line : List Char}
    (hoffset : offset + rowLength * count ≤ 16 ^ 8)
    (hline : (rowsFrom count offset bytes)[i]? = some line) :
    Pictures line (offset + rowLength * i) ((bytes.drop (rowLength * i)).take rowLength) := by
  induction count generalizing offset bytes i with
  | zero => cases hline
  | succ count ih =>
    rcases eq_or_ne bytes [] with rfl | hbytes
    · rw [rowsFrom_nil] at hline
      cases hline
    · have hpos : 0 < rowLength := by decide
      rw [Nat.mul_succ] at hoffset
      rw [rowsFrom_succ count offset hbytes] at hline
      cases i with
      | zero =>
        cases hline
        exact pictures_row (List.length_take_le _ _) (by omega)
      | succ i =>
        rw [List.getElem?_cons_succ] at hline
        have hpictures := ih (by omega) hline
        rwa [List.drop_drop, Nat.add_assoc, Nat.add_comm rowLength, ← Nat.mul_succ] at hpictures

/-- The rows, read in order, give their bytes back. -/
theorem readRows_rowsFrom (offset : Nat) (bytes : List UInt8) :
    readRows (rowsFrom count offset bytes) = bytes.take (rowLength * count) := by
  induction count generalizing offset bytes with
  | zero => rfl
  | succ count ih =>
    rcases eq_or_ne bytes [] with rfl | hbytes
    · rw [rowsFrom_nil, List.take_nil]
      rfl
    · rw [rowsFrom_succ count offset hbytes, readRows, List.flatMap_cons,
        readRow_row (List.length_take_le _ _), ← readRows, ih, Nat.mul_succ, Nat.add_comm,
        List.take_add]

theorem lineFeed_notMem_rowsFrom (offset : Nat) (bytes : List UInt8) :
    ∀ line ∈ rowsFrom count offset bytes, '\n' ∉ line := by
  induction count generalizing offset bytes with
  | zero =>
    intro line hline
    cases hline
  | succ count ih =>
    rcases eq_or_ne bytes [] with rfl | hbytes
    · rw [rowsFrom_nil]
      intro line hline
      cases hline
    · rw [rowsFrom_succ count offset hbytes]
      intro line hline
      rcases List.mem_cons.1 hline with rfl | hline
      · exact lineFeed_notMem_row _ _
      · exact ih _ _ line hline

/-! ## The dump of a buffer -/

/-- A dump is cut into its rows at its line feeds, and ends with one. -/
theorem splitOn_ofBytes (bytes : List UInt8) :
    splitOn '\n' (ofBytes bytes) = rows bytes ++ [[]] :=
  splitOn_flatMap (lineFeed_notMem_rowsFrom rowLimit 0 bytes)

/-- Only the first 256 bytes are dumped. -/
theorem rows_take (bytes : List UInt8) : rows (bytes.take 256) = rows bytes :=
  rowsFrom_take rowLimit 0 bytes

theorem length_rows (bytes : List UInt8) : (rows bytes).length = min bytes.length 256 ⌈/⌉ 16 := by
  have hlength : (rows (bytes.take 256)).length = min 16 ((bytes.take 256).length ⌈/⌉ 16) :=
    length_rowsFrom rowLimit 0 (bytes.take 256)
  rw [rows_take, List.length_take, Nat.min_comm 256] at hlength
  rw [hlength, Nat.ceilDiv_eq_add_pred_div]
  omega

/-- A dump is read back row by row. -/
theorem readRows_rows (bytes : List UInt8) : readRows (rows bytes) = bytes.take 256 :=
  readRows_rowsFrom rowLimit 0 bytes

/-- Dumps are the same if the bytes that they show are. -/
theorem ofBytes_eq_iff {bytes other : List UInt8} :
    ofBytes bytes = ofBytes other ↔ bytes.take 256 = other.take 256 := by
  constructor
  · intro h
    have hrows := splitOn_ofBytes bytes
    rw [h, splitOn_ofBytes other] at hrows
    rw [← readRows_rows bytes, ← readRows_rows other, List.append_cancel_right hrows]
  · intro h
    rw [ofBytes, ofBytes, ← rows_take bytes, h, rows_take]

/-- **A dump pictures the first 256 bytes.**  It has a line for every sixteen of them and for what
is left, and each ends with a line feed.  The line of number `i` tells the offset `16 * i` and
shows the bytes from there on in their columns, from which they are read back; so dumps are the
same exactly if these bytes are. -/
theorem ofBytes_columns :
    (∀ bytes : List UInt8, ∃ lines, splitOn '\n' (ofBytes bytes) = lines ++ [[]] ∧
      lines.length = min bytes.length 256 ⌈/⌉ 16 ∧
      (∀ i line, lines[i]? = some line →
        Pictures line (16 * i) (((bytes.take 256).drop (16 * i)).take 16)) ∧
      (lines.flatMap fun line => readCells ((line.take 58).drop 10)) = bytes.take 256) ∧
    ∀ bytes other : List UInt8, ofBytes bytes = ofBytes other ↔ bytes.take 256 = other.take 256 := by
  refine ⟨fun bytes => ⟨rows bytes, splitOn_ofBytes bytes, length_rows bytes, fun i line hline => ?_,
    readRows_rows bytes⟩, fun _ _ => ofBytes_eq_iff⟩
  rw [← rows_take] at hline
  have hpictures : Pictures line (0 + 16 * i) (((bytes.take 256).drop (16 * i)).take 16) :=
    pictures_rowsFrom rowLimit (by decide) hline
  rwa [Nat.zero_add] at hpictures

/-- The last row is short, and its gutter shows a bar. -/
theorem ofBytes_columns_bar_byte :
    splitOn '\n' (ofBytes (List.replicate 16 0x30 ++ [0x7C])) =
      ["00000000: 30 30 30 30 30 30 30 30 30 30 30 30 30 30 30 30 |0000000000000000|".toList,
        "00000010: 7C                                              |||".toList, []] ∧
      Pictures "00000010: 7C                                              |||".toList 16 [0x7C] := by
  obtain ⟨lines, hsplit, -, hpictures, -⟩ := ofBytes_columns.1 (List.replicate 16 0x30 ++ [0x7C])
  have hlines : splitOn '\n' (ofBytes (List.replicate 16 0x30 ++ [0x7C])) =
      ["00000000: 30 30 30 30 30 30 30 30 30 30 30 30 30 30 30 30 |0000000000000000|".toList,
        "00000010: 7C                                              |||".toList] ++ [[]] := by decide
  rw [hlines] at hsplit
  refine ⟨hlines, hpictures 1 _ ?_⟩
  rw [← List.append_cancel_right hsplit]
  rfl

end HexDump

end ExposureKit
