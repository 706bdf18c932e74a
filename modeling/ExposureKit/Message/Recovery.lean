import ExposureKit.Bytes.Base64
import ExposureKit.Bytes.Literal
import ExposureKit.Bzip2.Archive
import ExposureKit.Message.Payload
import ExposureKit.Text.Wrap

/-!
# Recovering the message

A message is recovered from a file head in three stages: its payload is found by
the marker, read as base64, and decompressed. `recover` runs them; the first stage
that fails gives the `Cause`. The outcome, either way, is reported in lines.
-/

namespace ExposureKit

/-! ## Causes -/

/-- Why no message could be recovered: the stage that failed, and its fault. -/
inductive Cause where
  /-- The file head holds no marker. -/
  | noMarker
  /-- The payload is no base64 text. -/
  | badText (fault : Base64.Fault)
  /-- The decoded payload is no compressed data. -/
  | badData (fault : Bzip2.Fault)
  deriving DecidableEq, Repr

/-- The name of the stage that failed. -/
def Cause.stage : Cause → String
  | .noMarker => "marker"
  | .badText _ => "base64"
  | .badData _ => "bzip2"

/-- The text of a cause. -/
def Cause.message : Cause → String
  | .noMarker =>
    "marker \"" ++ String.ofList (marker.map Literal.charOf) ++ "\" not found in the first "
      ++ toString headLimit ++ " bytes"
  | .badText fault => "base64 decoding failed: " ++ fault.message
  | .badData fault => "bzip2 decompression failed: " ++ fault.message

/-! ## The three stages -/

/-- The encoded message of a file head. -/
def findPayload (head : List UInt8) : Except Cause (List UInt8) :=
  match payload? head with
  | some payload => .ok payload
  | none => .error .noMarker

/-- The compressed data that a payload encodes. -/
def decodePayload (payload : List UInt8) : Except Cause (List UInt8) :=
  (Base64.decode payload).mapError .badText

/-- The message in compressed data. -/
def decompressData (data : List UInt8) : Except Cause (List UInt8) :=
  (Bzip2.decompress data).mapError .badData

/-- The message of a file head. -/
def recover (head : List UInt8) : Except Cause (List UInt8) :=
  (findPayload head).bind fun payload => (decodePayload payload).bind decompressData

/-! ## Outcomes and their reports -/

/-- What came of looking for a message. -/
inductive Outcome where
  /-- The message was recovered. -/
  | recovered (message : List UInt8)
  /-- There was none, or it was damaged. -/
  | failed (cause : Cause)
  deriving DecidableEq, Repr

namespace Outcome

/-- The outcome for a file, of which only the head counts. -/
def ofFile (content : List UInt8) : Outcome :=
  match recover (content.take headLimit) with
  | .ok message => .recovered message
  | .error cause => .failed cause

/-- A message was recovered. -/
def isRecovered : Outcome → Bool
  | .recovered _ => true
  | .failed _ => false

/-- The exit status of the extractor: 1 for a message, 0 for none. -/
def exitCode (outcome : Outcome) : Nat := if outcome.isRecovered then 1 else 0

/-- The columns that a report is wrapped to. -/
def reportWidth : Nat := 80

/-- The line printed when there is no message. -/
def failureLine : String := "Failed to decompose message"

/-- The lines to print: the message as a wrapped literal, or the failure line. -/
def reportLines : Outcome → List String
  | .recovered message =>
    (Wrap.wrap reportWidth (Literal.ofBytes message)).map String.ofList
  | .failed _ => [failureLine]

end Outcome

end ExposureKit
