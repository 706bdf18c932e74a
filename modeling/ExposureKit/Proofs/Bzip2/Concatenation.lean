import Mathlib
import ExposureKit.Bzip2.Archive

/-!
# Concatenated streams

What `decompress` makes of any data, for any decoder of one stream.  Data has one and only
one decomposition into complete streams and a tail that begins with no further one
(`existsUnique_decomposition`), so it is enough to say what becomes of such a
concatenation.  That is read off `Archive.read`, which finds exactly the streams that were
put together and the fault of the tail (`read_bytesOf_append`).

The main result is `decompress_concatenation`: the contents of the streams are joined in
order when nothing follows them or when what follows them is ignored, and otherwise the
answer is the fault of the tail, without a byte of contents.
-/

namespace ExposureKit.Bzip2

namespace StreamDecoder

variable {ε : Type} (decoder : StreamDecoder ε)

/-! ## Complete streams -/

/-- A complete stream: the decoder takes all of it, and nothing is left. -/
structure CompleteStream where
  /-- The bytes of the stream. -/
  bytes : List UInt8
  /-- What it decodes to. -/
  contents : List UInt8
  bytes_ne_nil : bytes ≠ []
  decode_bytes : decoder.decode bytes = .ok (contents, [])

/-- The data in which complete streams stand one after the other. -/
def bytesOf (streams : List decoder.CompleteStream) : List UInt8 :=
  streams.flatMap CompleteStream.bytes

/-- The contents of complete streams, joined in order. -/
def contentsOf (streams : List decoder.CompleteStream) : List UInt8 :=
  streams.flatMap CompleteStream.contents

/-- No stream begins here: there is no data, or the decoder refuses it. -/
def Stops (tail : List UInt8) : Prop := tail = [] ∨ ∃ fault, decoder.decode tail = .error fault

variable {decoder}

@[simp] theorem bytesOf_cons (stream : decoder.CompleteStream)
    (streams : List decoder.CompleteStream) :
    decoder.bytesOf (stream :: streams) = stream.bytes ++ decoder.bytesOf streams :=
  List.flatMap_cons

/-- A complete stream is decoded alike whatever comes after it. -/
theorem CompleteStream.decode_append (stream : decoder.CompleteStream) (rest : List UInt8) :
    decoder.decode (stream.bytes ++ rest) = .ok (stream.contents, rest) := by
  obtain ⟨used, -, hused, hrest⟩ := decoder.decode_split stream.bytes_ne_nil stream.decode_bytes
  rw [List.append_nil] at hused
  rw [hused]
  exact hrest rest

theorem CompleteStream.append_ne_nil (stream : decoder.CompleteStream) (rest : List UInt8) :
    stream.bytes ++ rest ≠ [] :=
  List.append_ne_nil_of_left_ne_nil stream.bytes_ne_nil rest

/-- Whenever the decoder takes a stream off, that is a complete stream. -/
theorem exists_completeStream {data contents rest : List UInt8} (hne : data ≠ [])
    (h : decoder.decode data = .ok (contents, rest)) :
    ∃ stream : decoder.CompleteStream, stream.contents = contents ∧ data = stream.bytes ++ rest := by
  obtain ⟨used, hused, rfl, hrest⟩ := decoder.decode_split hne h
  have hdecode := hrest []
  rw [List.append_nil] at hdecode
  exact ⟨⟨used, contents, hused, hdecode⟩, rfl, rfl⟩

/-- Two complete streams at the front of the same data are the same. -/
theorem CompleteStream.eq_of_append_eq {first second : decoder.CompleteStream}
    {rest rest' : List UInt8} (h : first.bytes ++ rest = second.bytes ++ rest') :
    first = second ∧ rest = rest' := by
  have hdecode : (Except.ok (first.contents, rest) : Except ε _) =
      .ok (second.contents, rest') := by
    rw [← first.decode_append rest, h, second.decode_append]
  obtain ⟨hcontents, hrest⟩ := Prod.mk.inj (Except.ok.inj hdecode)
  subst hrest
  have hbytes : first.bytes = second.bytes := List.append_cancel_right h
  cases first
  cases second
  simp_all

/-! ## One decomposition -/

/-- A stream does not begin where the decoder stops. -/
theorem Stops.ne_append {tail rest : List UInt8} (h : decoder.Stops tail)
    (stream : decoder.CompleteStream) : tail ≠ stream.bytes ++ rest := by
  rintro rfl
  rcases h with hnil | ⟨fault, hfault⟩
  · exact stream.append_ne_nil rest hnil
  · rw [stream.decode_append] at hfault
    cases hfault

/-- All data is a concatenation of complete streams and a tail where the decoder stops. -/
theorem exists_decomposition (decoder : StreamDecoder ε) (data : List UInt8) :
    ∃ streams tail, data = decoder.bytesOf streams ++ tail ∧ decoder.Stops tail := by
  induction hn : data.length using Nat.strongRecOn generalizing data with
  | ind n ih =>
    by_cases hne : data = []
    · exact ⟨[], [], by rw [hne]; rfl, .inl rfl⟩
    · cases hdecode : decoder.decode data with
      | error fault => exact ⟨[], data, rfl, .inr ⟨fault, hdecode⟩⟩
      | ok split =>
        obtain ⟨contents, rest⟩ := split
        have hlt := decoder.length_rest_lt hne hdecode
        obtain ⟨stream, -, hdata⟩ := exists_completeStream hne hdecode
        obtain ⟨streams, tail, hrest, htail⟩ := ih rest.length (by omega) rest rfl
        refine ⟨stream :: streams, tail, ?_, htail⟩
        rw [bytesOf_cons, List.append_assoc, ← hrest, hdata]

/-- Two decompositions of the same data agree, stream by stream. -/
theorem decomposition_unique {streams streams' : List decoder.CompleteStream}
    {tail tail' : List UInt8} (htail : decoder.Stops tail) (htail' : decoder.Stops tail')
    (h : decoder.bytesOf streams ++ tail = decoder.bytesOf streams' ++ tail') :
    streams = streams' ∧ tail = tail' := by
  induction streams generalizing streams' with
  | nil =>
    cases streams' with
    | nil => exact ⟨rfl, h⟩
    | cons stream' streams' =>
      rw [bytesOf_cons, List.append_assoc] at h
      exact absurd h (htail.ne_append stream')
  | cons stream streams ih =>
    rw [bytesOf_cons, List.append_assoc] at h
    cases streams' with
    | nil => exact absurd h.symm (htail'.ne_append stream)
    | cons stream' streams' =>
      rw [bytesOf_cons, List.append_assoc] at h
      obtain ⟨rfl, hrest⟩ := CompleteStream.eq_of_append_eq h
      obtain ⟨rfl, rfl⟩ := ih hrest
      exact ⟨rfl, rfl⟩

/-- Data has exactly one decomposition. -/
theorem existsUnique_decomposition (decoder : StreamDecoder ε) (data : List UInt8) :
    ∃! split : List decoder.CompleteStream × List UInt8,
      data = decoder.bytesOf split.1 ++ split.2 ∧ decoder.Stops split.2 := by
  obtain ⟨streams, tail, hdata, htail⟩ := decoder.exists_decomposition data
  refine ⟨(streams, tail), ⟨hdata, htail⟩, ?_⟩
  rintro ⟨streams', tail'⟩ ⟨hdata', htail'⟩
  obtain ⟨rfl, rfl⟩ := decomposition_unique htail' htail (hdata'.symm.trans hdata)
  rfl

/-! ## Reading a concatenation -/

/-- Complete streams are found one by one, and reading goes on at the tail. -/
theorem read_bytesOf_append (streams : List decoder.CompleteStream) (tail : List UInt8) :
    Archive.read decoder (decoder.bytesOf streams ++ tail) =
      ⟨streams.map CompleteStream.contents ++ (Archive.read decoder tail).streams,
        (Archive.read decoder tail).fault⟩ := by
  induction streams with
  | nil => rfl
  | cons stream streams ih =>
    rw [bytesOf_cons, List.append_assoc,
      Archive.read_of_ok (stream.append_ne_nil _) (stream.decode_append _), ih]
    rfl

/-- Streams with nothing after them. -/
theorem decompress_bytesOf (streams : List decoder.CompleteStream) :
    decoder.decompress (decoder.bytesOf streams) = .ok (decoder.contentsOf streams) := by
  have hread := read_bytesOf_append streams []
  rw [List.append_nil, Archive.read_nil, List.append_nil] at hread
  rw [decompress, hread]
  rfl

/-- Streams with a tail that the decoder refuses: it is ignored after at least one stream,
unless it is a stream cut short. -/
theorem decompress_bytesOf_append {tail : List UInt8} {fault : ε}
    (streams : List decoder.CompleteStream) (hne : tail ≠ [])
    (h : decoder.decode tail = .error fault) :
    decoder.decompress (decoder.bytesOf streams ++ tail) =
      if streams ≠ [] ∧ decoder.isTruncation fault = false then .ok (decoder.contentsOf streams)
      else .error fault := by
  have hread := read_bytesOf_append streams tail
  rw [Archive.read_of_error hne h, List.append_nil] at hread
  rw [decompress, hread]
  cases streams with
  | nil => simp [Archive.contents, Archive.ignoredFault?]
  | cons stream streams =>
    cases hcut : decoder.isTruncation fault <;>
      simp [Archive.contents, Archive.ignoredFault?, hcut, contentsOf, List.flatMap_def]

/-- What decompresses does so to the contents of complete streams, and whatever follows
them holds no part of it. -/
theorem eq_contentsOf_of_decompress {data message : List UInt8}
    (h : decoder.decompress data = .ok message) :
    ∃ streams tail, data = decoder.bytesOf streams ++ tail ∧ decoder.Stops tail ∧
      message = decoder.contentsOf streams := by
  obtain ⟨streams, tail, rfl, htail⟩ := decoder.exists_decomposition data
  refine ⟨streams, tail, rfl, htail, ?_⟩
  by_cases hne : tail = []
  · rw [hne, List.append_nil, decompress_bytesOf] at h
    exact (Except.ok.inj h).symm
  · obtain ⟨fault, hfault⟩ := htail.resolve_left hne
    rw [decompress_bytesOf_append streams hne hfault] at h
    split at h
    · exact (Except.ok.inj h).symm
    · cases h

/-! ## The main result -/

/-- **Concatenated streams.**  Complete streams with nothing after them decompress to their
contents in order.  So they do with a tail that is no stream, if there is at least one of
them and the tail is no stream cut short; else the answer is the fault of the tail.  Every
data has exactly one such decomposition, and a message is never anything but the contents
of its complete streams. -/
theorem decompress_concatenation (decoder : StreamDecoder ε) :
    (∀ (streams : List decoder.CompleteStream) (tail : List UInt8),
      (tail = [] →
        decoder.decompress (decoder.bytesOf streams ++ tail) = .ok (decoder.contentsOf streams)) ∧
      (∀ fault, tail ≠ [] → decoder.decode tail = .error fault →
        decoder.decompress (decoder.bytesOf streams ++ tail) =
          if streams ≠ [] ∧ decoder.isTruncation fault = false
          then .ok (decoder.contentsOf streams) else .error fault)) ∧
    (∀ data, ∃! split : List decoder.CompleteStream × List UInt8,
      data = decoder.bytesOf split.1 ++ split.2 ∧ decoder.Stops split.2) ∧
    (∀ data message, decoder.decompress data = .ok message →
      ∃ streams tail, data = decoder.bytesOf streams ++ tail ∧ decoder.Stops tail ∧
        message = decoder.contentsOf streams) := by
  refine ⟨?_, ?_, ?_⟩
  · intro streams tail
    constructor
    · rintro rfl
      rw [List.append_nil]
      exact decompress_bytesOf streams
    · intro fault hne h
      exact decompress_bytesOf_append streams hne h
  · intro data
    exact decoder.existsUnique_decomposition data
  · intro data message h
    exact eq_contentsOf_of_decompress h

end StreamDecoder

/-- The letters `hi`, compressed. -/
def letters : List UInt8 :=
  [0x42, 0x5A, 0x68, 0x31, 0x31, 0x41, 0x59, 0x26, 0x53, 0x59, 0x9A, 0x89, 0xB4, 0x22, 0x00, 0x00,
    0x00, 0x01, 0x00, 0x00, 0x60, 0x20, 0x00, 0x21, 0x00, 0x82, 0xB1, 0x77, 0x24, 0x53, 0x85, 0x09,
    0x09, 0xA8, 0x9B, 0x42, 0x20]

theorem decompress_letters : Stream.decompress letters = .ok ([0x68, 0x69], []) := by
  have hheader : Stream.header (Bits.ofBytes letters) = .ok (1, ⟨[], letters.drop 4⟩) := by cbv
  have hmark : Stream.mark ⟨[], letters.drop 4⟩ = .ok (false, ⟨[], letters.drop 10⟩) := by cbv
  have hblock : Block.reader 100000 ⟨[], letters.drop 10⟩ =
      .ok (⟨0x9A89B422, false, 0, #[0x69, 0x68]⟩,
        ⟨[false, false, false, true], letters.drop 27⟩) := by cbv
  have hbytes : Block.contents ⟨0x9A89B422, false, 0, #[0x69, 0x68]⟩ = .ok #[0x68, 0x69] := by
    have htext : unsort #[0x69, 0x68] 0 = #[0x68, 0x69] := by decide +kernel
    have hruns : expandRuns #[0x68, 0x69] = .ok #[0x68, 0x69] := by cbv
    have hsum : blockChecksum #[0x68, 0x69] = 0x9A89B422 := by decide +kernel
    simp [Block.contents, htext, hruns, hsum]
  have htrailer : Stream.mark ⟨[false, false, false, true], letters.drop 27⟩ =
      .ok (true, ⟨[true, false, false, true], letters.drop 33⟩) := by cbv
  have hnumber : Reader.number 32 ⟨[true, false, false, true], letters.drop 33⟩ =
      .ok (0x9A89B422, ⟨[false, false, false, false], []⟩) := by cbv
  refine Stream.decompress_eq_ok.2 ⟨#[0x68, 0x69], ⟨[false, false, false, false], []⟩,
    Reader.bind_eq_ok.2 ⟨1, _, hheader, ?_⟩, rfl, rfl⟩
  exact (Stream.blocksFrom_of_block hmark hblock hbytes).trans
    (Stream.blocksFrom_of_trailer htrailer hnumber (by decide))

/-- The letters `hi` as a complete stream. -/
def letterStream : Stream.decoder.CompleteStream :=
  ⟨letters, [0x68, 0x69], by decide, decompress_letters⟩

/-- Twice the letters `hi`, with nothing after them, with three bytes that begin no stream,
and with a header that is cut short. -/
theorem decompress_concatenation_letters :
    decompress (letters ++ letters) = .ok [0x68, 0x69, 0x68, 0x69] ∧
    decompress (letters ++ letters ++ [0x0A, 0x0A, 0x0A]) = .ok [0x68, 0x69, 0x68, 0x69] ∧
    decompress (letters ++ letters ++ [0x42, 0x5A]) = .error .truncated := by
  have hmain := (StreamDecoder.decompress_concatenation Stream.decoder).1
    [letterStream, letterStream]
  have hjunk : Stream.decoder.decode [0x0A, 0x0A, 0x0A] = .error .headerMissing := by cbv
  have hcut : Stream.decoder.decode [0x42, 0x5A] = .error .truncated := by cbv
  refine ⟨?_, ?_, ?_⟩
  · exact (hmain []).1 rfl
  · exact (hmain [0x0A, 0x0A, 0x0A]).2 .headerMissing (by decide) hjunk
  · exact (hmain [0x42, 0x5A]).2 .truncated (by decide) hcut

end ExposureKit.Bzip2
