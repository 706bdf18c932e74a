import ExposureKit.Bytes.HexDump
import ExposureKit.Message.Recovery
import ExposureKit.Program.Run
import ExposureKit.Storage.Path

/-!
# The extractor

The extractor reads the head of the file that it is given, and prints the message
in it or that there is none. The exit status is 1 when there is a message and 0 when
there is none, so 1 with no output means that the file could not be read.
-/

namespace ExposureKit.Extractor

/-- The operand: the file to read. -/
def operand : OperandInfo :=
  ⟨"<FILE>", "File holding the message within its first " ++ toString headLimit ++ " bytes"⟩

/-- The extractor, as its help describes it. -/
def info : ProgramInfo :=
  ⟨"decmprss-b64z2", "Decode the base64 + bzip2 message following 'BF=' in a file", some operand⟩

/-! ## What is logged -/

/-- The log target of the recovery. -/
def recoveryTarget : String := "aristarchos_tools::payload"

/-- The log target of the program itself. -/
def programTarget : String := "decmprss_b64z2"

/-- What is logged while compressed data is decompressed. -/
def decompressionEvents (data : List UInt8) : List LogEvent :=
  match decompressData data with
  | .ok message =>
    ((Bzip2.ignoredFault? data).map fun fault =>
        (⟨.trace, recoveryTarget, "ignoring trailing data after bzip2 stream",
          [("error", fault.message)]⟩ : LogEvent)).toList
      ++ [⟨.debug, recoveryTarget, "decompressed message",
        [("bytes", toString message.length)]⟩]
  | .error _ => []

/-- What is logged while a payload is decoded and decompressed. -/
def payloadEvents (payload : List UInt8) : List LogEvent :=
  match decodePayload payload with
  | .ok data =>
    ⟨.debug, recoveryTarget, "decoded base64 message",
        [("encoded", toString payload.length), ("compressed", toString data.length)]⟩
      :: decompressionEvents data
  | .error _ =>
    [⟨.debug, recoveryTarget, "encoded message:\n" ++ String.ofList (HexDump.ofBytes payload), []⟩]

/-- What is logged when the marker of a file head has been found. -/
def markerEvents (head : List UInt8) (offset : Nat) : List LogEvent :=
  ⟨.trace, recoveryTarget, "located marker",
      [("offset", toString offset), ("start", toString (payloadStart offset)),
        ("end", toString (payloadEnd head))]⟩
    :: payloadEvents (payloadBehind head offset)

/-- What is logged while the message of a file head is recovered. -/
def recoveryEvents (path : String) (head : List UInt8) : List LogEvent :=
  ⟨.trace, recoveryTarget, "read file head",
      [("path", path), ("bytes", toString head.length)]⟩
    :: ((markerOffset? head).elim [] (markerEvents head))
    ++ (match recover head with
      | .ok _ => []
      | .error cause =>
        [⟨.debug, recoveryTarget, "failed to decompose message",
          [("stage", "\"" ++ cause.stage ++ "\""), ("error", cause.message)]⟩])

/-! ## Running -/

/-- The run on a file that has this content or cannot be read. -/
def runOn (log : Log) (path : String) : Except FileFault (List UInt8) → ProgramRun
  | .error fault => .failing log ("failed to read " ++ path) fault.message
  | .ok content =>
    let outcome := Outcome.ofFile content
    .working log
      (recoveryEvents path (content.take headLimit)
        ++ [⟨.debug, programTarget, "extraction finished",
          [("decomposed", toString outcome.isRecovered)]⟩])
      outcome.exitCode (String.join (outcome.reportLines.map (· ++ "\n")))

/-- The run with these arguments in a working directory; `setting` says what is logged. -/
def run (directory : Directory) (setting : Option String) (arguments : List String) :
    ProgramRun :=
  match Startup.read info setting arguments with
  | .over run => run
  | .ready operand log =>
    let path := operand.getD ""
    runOn log path (directory.read path)

end ExposureKit.Extractor
