import ExposureKit.Bzip2.PrefixCode

/-!
# The last column of a block

The coded symbols of a block spell its last column: the bytes in the order of the
sorted rotations. A symbol is a digit of a run length, a position in the
move-to-front order of the bytes in use, or the end of the block. Run lengths are
written in digits 1 and 2 of doubling weight, the lowest first; a run repeats the
byte at the front.

Symbols come in groups of fifty; every group names the code that it is read by.
-/

namespace ExposureKit.Bzip2

/-- A last column that is being spelled. -/
structure Column where
  /-- The bytes so far. -/
  bytes : Array UInt8
  /-- The bytes in use, the one used last in front. -/
  order : List UInt8
  /-- The length of the run in hand, by the digits read so far. -/
  run : Nat
  /-- The weight of the next digit of the run. -/
  weight : Nat

namespace Column

/-- Nothing spelled yet, over the bytes in use. -/
def start (used : List UInt8) : Column := ⟨#[], used, 0, 1⟩

/-- The weight at which a further digit of a run is refused. -/
def weightLimit : Nat := 2 * 1024 * 1024

/-- Adds the digit 1 or 2 to the run in hand. -/
def addDigit (digit : Nat) (column : Column) : Except Fault Column :=
  if weightLimit ≤ column.weight then .error .corrupt
  else .ok { column with
    run := column.run + digit * column.weight
    weight := 2 * column.weight }

/-- Writes out the run in hand; a column longer than `limit` is refused. -/
def flush (limit : Nat) (column : Column) : Except Fault Column :=
  if column.run = 0 then .ok column
  else if limit < column.bytes.size + column.run then .error .corrupt
  else match column.order with
    | [] => .error .corrupt
    | front :: _ => .ok { column with
        bytes := column.bytes ++ Array.replicate column.run front
        run := 0
        weight := 1 }

/-- Writes the byte at `position` of the order and moves it to the front. -/
def take (limit position : Nat) (column : Column) : Except Fault Column :=
  if limit ≤ column.bytes.size then .error .corrupt
  else match column.order.splitAt position with
    | (_, []) => .error .corrupt
    | (before, b :: after) => .ok { column with
        bytes := column.bytes.push b
        order := b :: (before ++ after) }

end Column

/-- What a coded symbol asks for. -/
inductive Symbol where
  /-- A digit of a run length, 1 or 2. -/
  | digit (value : Nat)
  /-- A position in the move-to-front order, never the front. -/
  | position (index : Nat)
  /-- The end of the block. -/
  | endOfBlock

/-- The meaning of a symbol number when `used` bytes are in use. -/
def Symbol.ofNumber (used number : Nat) : Symbol :=
  if number < 2 then .digit (number + 1)
  else if number = used + 1 then .endOfBlock
  else .position (number - 1)

/-- Symbols in a group. -/
def groupSize : Nat := 50

/-- How far a group got: the block may end in it. -/
inductive Progress where
  /-- The group is used up and the column goes on. -/
  | going (column : Column)
  /-- The block has ended with this column. -/
  | complete (column : Column)

/-- Reads up to `count` symbols by one code. The fault of a symbol is met before
anything after it is read. -/
def readGroup (limit used : Nat) (code : PrefixCode) (column : Column) (count : Nat)
    (bits : Bits) : Except Fault (Progress × Bits) :=
  match count with
  | 0 => .ok (.going column, bits)
  | count + 1 =>
    match code.read bits with
    | .error fault => .error fault
    | .ok (number, rest) =>
      match Symbol.ofNumber used number with
      | .digit value =>
        match column.addDigit value with
        | .error fault => .error fault
        | .ok column => readGroup limit used code column count rest
      | .endOfBlock =>
        match column.flush limit with
        | .error fault => .error fault
        | .ok column => .ok (.complete column, rest)
      | .position index =>
        match (column.flush limit).bind (Column.take limit index) with
        | .error fault => .error fault
        | .ok column => readGroup limit used code column count rest

/-- Reads groups by the codes that the selectors name, in turn, until the block
ends. It has to end before the selectors do. -/
def readColumn (limit used : Nat) (column : Column) (selectors : List PrefixCode)
    (bits : Bits) : Except Fault (Array UInt8 × Bits) :=
  match selectors with
  | [] => .error .corrupt
  | code :: selectors =>
    match readGroup limit used code column groupSize bits with
    | .error fault => .error fault
    | .ok (.complete column, rest) => .ok (column.bytes, rest)
    | .ok (.going column, rest) => readColumn limit used column selectors rest

/-! ## Reading is local -/

/-- Goes on with the value of a computation, or stops with its fault. -/
def Reader.ofExcept {α : Type} : Except Fault α → Reader α
  | .ok a => Reader.pure a
  | .error fault => Reader.stop fault

theorem Reader.Local.ofExcept {α : Type} (value : Except Fault α) :
    (Reader.ofExcept value).Local := by
  cases value with
  | error fault => exact .stop fault
  | ok a => exact .pure a

/-- A group is read symbol by symbol: its first symbol, and what that asks for. -/
theorem readGroup_succ (limit used : Nat) (code : PrefixCode) (column : Column) (count : Nat) :
    readGroup limit used code column (count + 1) =
      Reader.bind code.read fun number =>
        match Symbol.ofNumber used number with
        | .digit value => Reader.bind (.ofExcept (column.addDigit value)) fun column =>
          readGroup limit used code column count
        | .endOfBlock => Reader.bind (.ofExcept (column.flush limit)) fun column =>
          Reader.pure (.complete column)
        | .position index =>
          Reader.bind (.ofExcept ((column.flush limit).bind (Column.take limit index)))
            fun column => readGroup limit used code column count := by
  funext bits
  rw [readGroup]
  unfold Reader.bind
  cases code.read bits with
  | error fault => rfl
  | ok read =>
    obtain ⟨number, rest⟩ := read
    dsimp only
    cases Symbol.ofNumber used number with
    | digit value =>
      dsimp only
      cases column.addDigit value <;> rfl
    | endOfBlock =>
      dsimp only
      cases column.flush limit <;> rfl
    | position index =>
      dsimp only
      cases (column.flush limit).bind (Column.take limit index) <;> rfl

theorem local_readGroup (limit used : Nat) (code : PrefixCode) (column : Column) (count : Nat) :
    Reader.Local (readGroup limit used code column count) := by
  induction count generalizing column with
  | zero => exact .pure (Progress.going column)
  | succ count ih =>
    rw [readGroup_succ]
    refine .bind code.local_read fun number => ?_
    split
    · exact .bind (.ofExcept _) ih
    · exact .bind (.ofExcept _) fun column => .pure (Progress.complete column)
    · exact .bind (.ofExcept _) ih

/-- A column is read group by group. -/
theorem readColumn_cons (limit used : Nat) (column : Column) (code : PrefixCode)
    (selectors : List PrefixCode) :
    readColumn limit used column (code :: selectors) =
      Reader.bind (readGroup limit used code column groupSize) fun progress =>
        match progress with
        | .complete column => Reader.pure column.bytes
        | .going column => readColumn limit used column selectors := by
  funext bits
  rw [readColumn]
  unfold Reader.bind
  cases readGroup limit used code column groupSize bits with
  | error fault => rfl
  | ok read =>
    obtain ⟨progress, rest⟩ := read
    cases progress <;> rfl

theorem local_readColumn (limit used : Nat) (column : Column) (selectors : List PrefixCode) :
    Reader.Local (readColumn limit used column selectors) := by
  induction selectors generalizing column with
  | nil => exact .stop .corrupt
  | cons code selectors ih =>
    rw [readColumn_cons]
    refine .bind (local_readGroup limit used code column groupSize) fun progress => ?_
    cases progress with
    | going column => exact ih column
    | complete column => exact .pure column.bytes

end ExposureKit.Bzip2
