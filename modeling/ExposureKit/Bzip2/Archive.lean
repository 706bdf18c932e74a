import ExposureKit.Bzip2.Stream

/-!
# Streams one after the other

Compressed data is any number of streams in a row, and `Archive.read` takes it apart.
Data after a complete stream that is no further stream is ignored, but a stream that is
cut short is a fault wherever it stands.

How one stream is decoded does not matter here: a `StreamDecoder` is anything that takes
a stream off the front of data. `decompress` puts in the decoder of `Stream`.
-/

namespace ExposureKit.Bzip2

/-! ## Decoders of one stream -/

/-- A decoder of the stream at the front of data. -/
structure StreamDecoder (ε : Type) where
  /-- Decodes the stream; gives its contents and the data after it, or the fault. -/
  decode : List UInt8 → Except ε (List UInt8 × List UInt8)
  /-- The fault says that the data ends before the stream does. -/
  isTruncation : ε → Bool
  /-- A stream has at least one byte, and what comes after it does not matter to it. -/
  decode_split : ∀ {data contents rest : List UInt8}, data ≠ [] →
    decode data = .ok (contents, rest) →
    ∃ stream, stream ≠ [] ∧ data = stream ++ rest ∧
      ∀ rest', decode (stream ++ rest') = .ok (contents, rest')

/-- The decoder of the streams of this format. -/
def Stream.decoder : StreamDecoder Fault where
  decode := Stream.decompress
  isTruncation := (· == .truncated)
  decode_split := fun _ h => Stream.decompress_split h

variable {ε : Type}

theorem StreamDecoder.length_rest_lt (decoder : StreamDecoder ε) {data contents rest : List UInt8}
    (hne : data ≠ []) (h : decoder.decode data = .ok (contents, rest)) :
    rest.length < data.length := by
  obtain ⟨stream, hstream, rfl, -⟩ := decoder.decode_split hne h
  have := List.length_pos_iff.2 hstream
  rw [List.length_append]
  omega

/-! ## Taking data apart -/

/-- Data that has been taken apart into streams. -/
structure Archive (ε : Type) where
  /-- The contents of the complete streams, in order. -/
  streams : List (List UInt8)
  /-- The fault of what follows them, if anything does. -/
  fault : Option ε
  deriving DecidableEq, Repr

namespace Archive

/-- Takes the rest of the data apart; `done` holds the contents of the streams before
it, the last one first. -/
def readFrom (decoder : StreamDecoder ε) (done : List (List UInt8)) (data : List UInt8) :
    Archive ε :=
  if _hne : data = [] then ⟨done.reverse, none⟩
  else match _h : decoder.decode data with
    | .error fault => ⟨done.reverse, some fault⟩
    | .ok (contents, rest) => readFrom decoder (contents :: done) rest
termination_by data.length
decreasing_by exact decoder.length_rest_lt _hne _h

/-- Takes data apart. -/
def read (decoder : StreamDecoder ε) (data : List UInt8) : Archive ε := readFrom decoder [] data

theorem readFrom_append (decoder : StreamDecoder ε) (done before : List (List UInt8))
    (data : List UInt8) :
    readFrom decoder (done ++ before) data =
      ⟨before.reverse ++ (readFrom decoder done data).streams,
        (readFrom decoder done data).fault⟩ := by
  fun_induction readFrom decoder done data with
  | case1 => rw [readFrom]; simp
  | case2 done data hne fault hfault => rw [readFrom, dif_neg hne]; split <;> simp_all
  | case3 done data hne contents rest hstream ih =>
    rw [readFrom, dif_neg hne]
    split <;> simp_all

/-- Empty data holds no streams. -/
theorem read_nil (decoder : StreamDecoder ε) : read decoder [] = ⟨[], none⟩ := by
  rw [read, readFrom]; rfl

/-- Data that begins with no stream holds none. -/
theorem read_of_error {decoder : StreamDecoder ε} {data : List UInt8} {fault : ε}
    (hne : data ≠ []) (h : decoder.decode data = .error fault) :
    read decoder data = ⟨[], some fault⟩ := by
  rw [read, readFrom, dif_neg hne]
  split <;> simp_all

/-- A stream at the front comes before those of the rest. -/
theorem read_of_ok {decoder : StreamDecoder ε} {data contents rest : List UInt8}
    (hne : data ≠ []) (h : decoder.decode data = .ok (contents, rest)) :
    read decoder data =
      ⟨contents :: (read decoder rest).streams, (read decoder rest).fault⟩ := by
  have hrest := readFrom_append decoder [] [contents] rest
  rw [read, readFrom, dif_neg hne]
  split <;> simp_all [read]

/-! ## What the data comes to -/

/-- The data that follows the streams is ignored: it comes after a complete stream, and
it is no stream cut short. -/
def ignoredFault? (isTruncation : ε → Bool) (archive : Archive ε) : Option ε :=
  if archive.streams.isEmpty then none else archive.fault.filter (!isTruncation ·)

/-- The contents of all streams, joined; a fault that is not ignored is in the way. -/
def contents (isTruncation : ε → Bool) (archive : Archive ε) : Except ε (List UInt8) :=
  match archive.fault with
  | none => .ok archive.streams.flatten
  | some fault =>
    if (archive.ignoredFault? isTruncation).isSome then .ok archive.streams.flatten
    else .error fault

end Archive

/-- The contents of compressed data, its streams joined in order. Empty data has
empty contents, and data that begins with no stream has none. -/
def StreamDecoder.decompress (decoder : StreamDecoder ε) (data : List UInt8) :
    Except ε (List UInt8) :=
  (Archive.read decoder data).contents decoder.isTruncation

/-- The contents of data that is compressed in this format. -/
def decompress (data : List UInt8) : Except Fault (List UInt8) := Stream.decoder.decompress data

/-- The fault of the data after the streams, when it is ignored. -/
def ignoredFault? (data : List UInt8) : Option Fault :=
  (Archive.read Stream.decoder data).ignoredFault? Stream.decoder.isTruncation

end ExposureKit.Bzip2
