/-!
# Checksums

The checksum of a block is the cyclic redundancy check of its bytes with the
polynomial `0x04C11DB7`, most significant bit first, begun with all bits set and
inverted at the end. The checksum of a stream folds those of its blocks.
-/

namespace ExposureKit.Bzip2

/-- The generator polynomial, without its leading term. -/
def polynomial : UInt32 := 0x04C11DB7

/-- Divides `count` further bits. -/
def divideBits (remainder : UInt32) : (count : Nat) → UInt32
  | 0 => remainder
  | count + 1 =>
    divideBits (if remainder &&& 0x80000000 ≠ 0 then (remainder <<< 1) ^^^ polynomial
      else remainder <<< 1) count

/-- The remainder after one more byte. -/
def divideByte (remainder : UInt32) (b : UInt8) : UInt32 :=
  divideBits (remainder ^^^ (b.toUInt32 <<< 24)) 8

/-- The checksum of a block's bytes. -/
def blockChecksum (bytes : Array UInt8) : UInt32 :=
  bytes.foldl divideByte 0xFFFFFFFF ^^^ 0xFFFFFFFF

/-- The checksum of the blocks so far, after one more block. -/
def combineChecksums (combined block : UInt32) : UInt32 :=
  ((combined <<< 1) ||| (combined >>> 31)) ^^^ block

end ExposureKit.Bzip2
