import ExposureKit.Bzip2.Checksum
import ExposureKit.Bzip2.Column
import ExposureKit.Bzip2.Randomised
import ExposureKit.Bzip2.Rotation
import ExposureKit.Bzip2.RunLength

/-!
# Blocks

A block stores its checksum, the row of its text among the sorted rotations, the
bytes in use, the codes and the selectors, and then the symbols of the last
column. `Block.reader` reads all that; `Block.contents` turns the last column back
into the bytes that were compressed.

The rules are checked in the order in which the fields are read, so the first
fault of a damaged block decides.
-/

namespace ExposureKit.Bzip2

/-- A block as it is stored. -/
structure Block where
  /-- The checksum of its contents. -/
  checksum : UInt32
  /-- The block is of the obsolete randomised kind. -/
  randomised : Bool
  /-- The row of the text among the sorted rotations. -/
  origin : Nat
  /-- The last column of the sorted rotations. -/
  column : Array UInt8

namespace Block

/-! ## The bytes in use -/

/-- The numbers from `first` on whose bit is set. -/
def setBits (first : Nat) : List Bool → List Nat
  | [] => []
  | b :: bits => if b then first :: setBits (first + 1) bits else setBits (first + 1) bits

/-- Reads the bytes in use among the sixteen that begin with each of `groups`. -/
def usedIn : (groups : List Nat) → Reader (List UInt8)
  | [] => Reader.pure []
  | group :: groups =>
    Reader.bind (Reader.times Reader.bit 16) fun bits =>
      Reader.bind (usedIn groups) fun used =>
        Reader.pure ((setBits (16 * group) bits).map UInt8.ofNat ++ used)

/-- Reads the bytes in use: sixteen bits say which groups of sixteen bytes have
any, and each of those groups has sixteen bits of its own. -/
def usedBytes : Reader (List UInt8) :=
  Reader.bind (Reader.times Reader.bit 16) fun bits => usedIn (setBits 0 bits)

/-! ## Selectors -/

/-- The selectors of a block that are used; further ones are read and ignored. -/
def selectorLimit : Nat := 18002

/-- Reads a position in the order of the codes, as so many set bits and a clear
one; `left` positions remain. -/
def selector (passed : Nat) : (left : Nat) → Reader Nat
  | 0 => Reader.stop .corrupt
  | left + 1 => Reader.bind Reader.bit fun b =>
    if b then selector (passed + 1) left else Reader.pure passed

/-- The codes that the positions name, each code moving to the front of the order
when it is named. -/
def namedCodes (order : List PrefixCode) : List Nat → List PrefixCode
  | [] => []
  | position :: positions =>
    match order.splitAt position with
    | (_, []) => []
    | (before, code :: after) => code :: namedCodes (code :: (before ++ after)) positions

/-! ## Reading a block -/

/-- Reads a block, after its mark, of at most `limit` bytes in its last column. -/
def reader (limit : Nat) : Reader Block :=
  Reader.bind (Reader.number 32) fun checksum =>
  Reader.bind Reader.bit fun randomised =>
  Reader.bind (Reader.number 24) fun origin =>
  Reader.bind (Reader.check (origin ≤ 10 + limit) .corrupt) fun _ =>
  Reader.bind usedBytes fun used =>
  Reader.bind (Reader.check (!used.isEmpty) .corrupt) fun _ =>
  Reader.bind (Reader.number 3) fun codeCount =>
  Reader.bind (Reader.check (2 ≤ codeCount && codeCount ≤ 6) .corrupt) fun _ =>
  Reader.bind (Reader.number 15) fun selectorCount =>
  Reader.bind (Reader.check (1 ≤ selectorCount) .corrupt) fun _ =>
  Reader.bind (Reader.times (selector 0 codeCount) selectorCount) fun positions =>
  Reader.bind (Reader.times (PrefixCode.reader (used.length + 2)) codeCount) fun codes =>
  Reader.bind (readColumn limit used.length (Column.start used)
    (namedCodes codes (positions.take selectorLimit))) fun column =>
  Reader.bind (Reader.check (origin < column.size) .corrupt) fun _ =>
  Reader.pure { checksum := UInt32.ofNat checksum, randomised, origin, column }

/-- The bytes that were compressed into the block; their checksum has to be right. -/
def contents (block : Block) : Except Fault (Array UInt8) :=
  let text := unsort block.column block.origin
  match expandRuns (if block.randomised then unrandomise text else text) with
  | .error fault => .error fault
  | .ok bytes => if blockChecksum bytes = block.checksum then .ok bytes else .error .corrupt

/-! ## Reading is local -/

theorem local_usedIn (groups : List Nat) : (usedIn groups).Local := by
  induction groups with
  | nil => exact .pure []
  | cons group groups ih => exact .bind (.times .bit 16) fun _ => .bind ih fun _ => .pure _

theorem local_usedBytes : usedBytes.Local :=
  .bind (.times .bit 16) fun _ => local_usedIn _

theorem local_selector (passed left : Nat) : (selector passed left).Local := by
  induction left generalizing passed with
  | zero => exact .stop .corrupt
  | succ left ih =>
    refine .bind .bit fun b => ?_
    split
    · exact ih (passed + 1)
    · exact .pure passed

theorem local_reader (limit : Nat) : (reader limit).Local :=
  .bind (.number 32) fun _ => .bind .bit fun _ => .bind (.number 24) fun _ =>
  .bind (.check _ _) fun _ => .bind local_usedBytes fun _ => .bind (.check _ _) fun _ =>
  .bind (.number 3) fun _ => .bind (.check _ _) fun _ => .bind (.number 15) fun _ =>
  .bind (.check _ _) fun _ => .bind (.times (local_selector ..) _) fun _ =>
  .bind (.times (PrefixCode.local_reader _) _) fun _ =>
  .bind (local_readColumn ..) fun _ => .bind (.check _ _) fun _ => .pure _

end Block

end ExposureKit.Bzip2
