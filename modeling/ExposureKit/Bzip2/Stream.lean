import ExposureKit.Bzip2.Block

/-!
# Streams

A stream is a header with the block size, blocks, and a trailer with the checksum
of all of them. Each part is announced by a mark of six bytes; a byte that does not
belong there is noticed when it is read. The stream ends with the byte in which its
last bit lies, and what follows is the caller's.
-/

namespace ExposureKit.Bzip2

/-- The bytes of the last column that a block may have per step of the level. -/
def blockSizeUnit : Nat := 100000

/-- The six bytes that announce a block. -/
def blockMark : List UInt8 := [0x31, 0x41, 0x59, 0x26, 0x53, 0x59]

/-- The six bytes that announce the trailer. -/
def trailerMark : List UInt8 := [0x17, 0x72, 0x45, 0x38, 0x50, 0x90]

namespace Stream

/-! ## Headers and marks -/

/-- Reads a byte that has to pass the test. -/
def byteThat (test : UInt8 → Bool) (fault : Fault) : Reader UInt8 :=
  Reader.bind (Reader.number 8) fun n =>
    Reader.bind (Reader.check (test (UInt8.ofNat n)) fault) fun _ => Reader.pure (UInt8.ofNat n)

/-- Reads these very bytes. -/
def exactly (fault : Fault) : List UInt8 → Reader Unit
  | [] => Reader.pure ()
  | b :: bytes => Reader.bind (byteThat (· == b) fault) fun _ => exactly fault bytes

/-- Reads the stream header, `BZh` and the level; gives the level. -/
def header : Reader Nat :=
  Reader.bind (exactly .headerMissing [0x42, 0x5A, 0x68]) fun _ =>
    Reader.bind (byteThat (fun b => 0x31 ≤ b && b ≤ 0x39) .headerMissing) fun level =>
      Reader.pure (level.toNat - 0x30)

/-- Reads a mark, and tells whether it announces the trailer. -/
def mark : Reader Bool :=
  Reader.bind (byteThat (fun b => b == 0x17 || b == 0x31) .corrupt) fun b =>
    if b = 0x17 then Reader.bind (exactly .corrupt trailerMark.tail) fun _ => Reader.pure true
    else Reader.bind (exactly .corrupt blockMark.tail) fun _ => Reader.pure false

theorem consumes_byteThat (test : UInt8 → Bool) (fault : Fault) :
    (byteThat test fault).Consumes :=
  .bind (.number (by decide)) fun _ => .bind (.check _ _) fun _ => .pure _

theorem local_byteThat (test : UInt8 → Bool) (fault : Fault) : (byteThat test fault).Local :=
  .bind (.number 8) fun _ => .bind (.check _ _) fun _ => .pure _

theorem local_exactly (fault : Fault) (bytes : List UInt8) : (exactly fault bytes).Local := by
  induction bytes with
  | nil => exact .pure ()
  | cons b bytes ih => exact .bind (local_byteThat _ _) fun _ => ih

theorem local_header : header.Local :=
  .bind (local_exactly _ _) fun _ => .bind (local_byteThat _ _) fun _ => .pure _

theorem consumes_header : header.Consumes :=
  .bind (.bind (consumes_byteThat _ _) fun _ => local_exactly _ _) fun _ =>
    .bind (local_byteThat _ _) fun _ => .pure _

theorem local_mark : mark.Local := by
  refine .bind (local_byteThat _ _) fun b => ?_
  split <;> exact .bind (local_exactly _ _) fun _ => .pure _

theorem consumes_mark : mark.Consumes := by
  refine .bind (consumes_byteThat _ _) fun b => ?_
  split <;> exact .bind (local_exactly _ _) fun _ => .pure _

/-! ## Blocks up to the trailer -/

/-- Reads blocks until the trailer. `combined` is the checksum of the blocks before
and `done` their contents; a block's contents are checked before the next mark is read. -/
def blocksFrom (limit : Nat) (combined : UInt32) (done : Array UInt8) (bits : Bits) :
    Except Fault (Array UInt8 × Bits) :=
  match _hmark : mark bits with
  | .error fault => .error fault
  | .ok (true, rest) =>
    match Reader.number 32 rest with
    | .error fault => .error fault
    | .ok (stored, rest) =>
      if UInt32.ofNat stored = combined then .ok (done, rest) else .error .corrupt
  | .ok (false, rest) =>
    match _hblock : Block.reader limit rest with
    | .error fault => .error fault
    | .ok (block, rest) =>
      match block.contents with
      | .error fault => .error fault
      | .ok bytes =>
        blocksFrom limit (combineChecksums combined block.checksum) (done ++ bytes) rest
termination_by bits.size
decreasing_by
  have := consumes_mark _hmark
  have := (Block.local_reader limit).size_le _hblock
  omega

/-- The trailer ends the blocks, when it holds their checksum. -/
theorem blocksFrom_of_trailer {limit stored : Nat} {combined : UInt32} {done : Array UInt8}
    {bits mid rest : Bits} (hmark : mark bits = .ok (true, mid))
    (hnumber : Reader.number 32 mid = .ok (stored, rest)) (hstored : UInt32.ofNat stored = combined) :
    blocksFrom limit combined done bits = .ok (done, rest) := by
  rw [blocksFrom]
  split <;> simp_all

/-- A block comes before those after it. -/
theorem blocksFrom_of_block {limit : Nat} {combined : UInt32} {done bytes : Array UInt8}
    {bits mid rest : Bits} {block : Block} (hmark : mark bits = .ok (false, mid))
    (hblock : Block.reader limit mid = .ok (block, rest)) (hbytes : block.contents = .ok bytes) :
    blocksFrom limit combined done bits =
      blocksFrom limit (combineChecksums combined block.checksum) (done ++ bytes) rest := by
  rw [blocksFrom]
  split
  · simp_all
  · simp_all
  · next mid' hmark' =>
    obtain rfl : mid' = mid := by simp_all
    split <;> simp_all

theorem local_blocksFrom (limit : Nat) (combined : UInt32) (done : Array UInt8) :
    Reader.Local (blocksFrom limit combined done) := by
  intro bits rest bytes h
  fun_induction blocksFrom limit combined done bits with
  | case1 | case2 | case4 | case5 | case6 => cases h
  | case3 =>
    rename_i hmark stored rest' hnumber
    cases h
    obtain ⟨first, hfirst, hagain⟩ := local_mark hmark
    obtain ⟨second, hsecond, hagain'⟩ := Reader.Local.number 32 hnumber
    refine ⟨first ++ second, Bits.takes_append hfirst hsecond, fun bits' rest' htakes => ?_⟩
    obtain ⟨mid', hmid', hrest'⟩ := Bits.exists_of_takes_append htakes
    exact blocksFrom_of_trailer (hagain hmid') (hagain' hrest') rfl
  | case7 =>
    rename_i hmark block mid' hblock bytes hbytes ih
    obtain ⟨first, hfirst, hagain⟩ := local_mark hmark
    obtain ⟨second, hsecond, hagain'⟩ := Block.local_reader limit hblock
    obtain ⟨third, hthird, hagain''⟩ := ih h
    refine ⟨first ++ (second ++ third),
      Bits.takes_append hfirst (Bits.takes_append hsecond hthird), fun bits' rest' htakes => ?_⟩
    obtain ⟨next, hnext, htakes'⟩ := Bits.exists_of_takes_append htakes
    obtain ⟨next', hnext', hrest'⟩ := Bits.exists_of_takes_append htakes'
    rw [blocksFrom_of_block (hagain hnext) (hagain' hnext') hbytes]
    exact hagain'' hrest'

/-- Reads a whole stream. -/
def reader : Reader (Array UInt8) :=
  Reader.bind header fun level => blocksFrom (blockSizeUnit * level) 0 #[]

theorem local_reader : reader.Local :=
  .bind local_header fun _ => local_blocksFrom _ _ _

theorem consumes_reader : reader.Consumes :=
  .bind consumes_header fun _ => local_blocksFrom _ _ _

/-- Decompresses the stream at the front of `bytes`; gives its contents and the
bytes after it. -/
def decompress (bytes : List UInt8) : Except Fault (List UInt8 × List UInt8) :=
  match reader (Bits.ofBytes bytes) with
  | .error fault => .error fault
  | .ok (contents, rest) => .ok (contents.toList, rest.bytes)

theorem decompress_eq_ok {bytes contents rest : List UInt8} :
    decompress bytes = .ok (contents, rest) ↔
      ∃ out left, reader (Bits.ofBytes bytes) = .ok (out, left) ∧
        out.toList = contents ∧ left.bytes = rest := by
  unfold decompress
  cases reader (Bits.ofBytes bytes) with
  | error fault => simp
  | ok read =>
    obtain ⟨out, left⟩ := read
    constructor
    · rintro h
      cases h
      exact ⟨out, left, rfl, rfl, rfl⟩
    · rintro ⟨out', left', heq, rfl, rfl⟩
      cases heq
      rfl

/-- A stream has at least one byte, and what comes after it does not matter to it. -/
theorem decompress_split {bytes contents rest : List UInt8}
    (h : decompress bytes = .ok (contents, rest)) :
    ∃ stream, stream ≠ [] ∧ bytes = stream ++ rest ∧
      ∀ rest', decompress (stream ++ rest') = .ok (contents, rest') := by
  obtain ⟨out, left, hread, rfl, rfl⟩ := decompress_eq_ok.1 h
  obtain ⟨taken, htaken, hagain⟩ := local_reader hread
  obtain ⟨stream, hstream, htakes⟩ := Bits.bytes_of_takes htaken
  refine ⟨stream, ?_, hstream, fun rest' => ?_⟩
  · -- bits of at least one byte were taken, for no bits are left over from before
    rintro rfl
    have hlt := consumes_reader hread
    rw [List.nil_append] at hstream
    rw [Bits.size, Bits.size, hstream] at hlt
    simp only [Bits.ofBytes, List.length_nil] at hlt
    omega
  · exact decompress_eq_ok.2 ⟨out, ⟨left.pending, rest'⟩, hagain (htakes rest'), rfl, rfl⟩

end Stream

end ExposureKit.Bzip2
