import ExposureKit.Program.DummyMaker
import ExposureKit.Program.Extractor
import Std.Time.Zoned

/-!
# The two programs

One executable serves as both programs and goes by the name under which it is
installed. Files, the clock, random bytes and the environment are met here and
nowhere else.
-/

namespace ExposureKit.Console

/-- What a system error says, in the words of `FileFault` where it has them. -/
def explain (error : IO.Error) : String :=
  match error with
  | .noFileOrDirectory .. => FileFault.notFound.message
  | .inappropriateType _ code _ =>
    if code = 21 then FileFault.isDirectory.message
    else if code = 20 then FileFault.notDirectory.message
    else error.toString
  | _ => error.toString

/-- Reads up to `count` bytes more. -/
partial def readBytes (handle : IO.FS.Handle) (count : Nat) (done : List ByteArray) :
    IO (List UInt8) := do
  let part ← if count = 0 then pure ByteArray.empty else handle.read (USize.ofNat count)
  if part.isEmpty then return done.reverse.flatMap ByteArray.toList
  readBytes handle (count - part.size) (part :: done)

/-- Reads the head of a file. -/
def readHead (path : String) : IO (List UInt8) := do
  readBytes (← IO.FS.Handle.mk path .read) headLimit []

/-- The run of the extractor, on the files of the system. -/
def extract (setting : Option String) (arguments : List String) : IO ProgramRun := do
  match Startup.read Extractor.info setting arguments with
  | .over run => return run
  | .ready operand log =>
    let path := operand.getD ""
    try return Extractor.runOn log path (.ok (← readHead path))
    catch error => return .failing log ("failed to read " ++ path) (explain error)

/-- Random words, more than the names of all nights can need. -/
def randomWords : IO RandomWords := do
  let bytes ← IO.getRandomBytes (USize.ofNat (16 * 60))
  return .ofSequence fun i =>
    (List.range 4).foldl (fun word j => 256 * word + (bytes.data.getD (4 * i + j) 0).toUInt32) 0

/-- The date of today, in local time. -/
def today : IO (Option Date) := do
  let date ← Std.Time.PlainDate.now
  return Date.ofNumbers? date.year.toInt date.month.val.toNat date.day.val.toNat

/-- Creates files without content in the working directory. -/
def createFiles (names : List String) : IO Unit := do
  for name in names do
    discard (IO.FS.Handle.mk name .write)

/-- The run of the dummy maker, on the files of the system. -/
def makeDummies (setting : Option String) (arguments : List String) : IO ProgramRun := do
  match Startup.read DummyMaker.info setting arguments with
  | .over run => return run
  | .ready _ log =>
    match ← today with
    | none => return .failing log "failed to create dummy fits files" "no date"
    | some date =>
      let result := (DummyMaker.generate (.directory .empty) date (← randomWords)).result
      try
        if let .ok report := result then createFiles report.created
        return DummyMaker.runOn log result
      catch error => return .failing log "failed to create dummy fits files" (explain error)

/-- Writes what a run writes. -/
def deliver (run : ProgramRun) : IO UInt32 := do
  (← IO.getStderr).putStr run.errors
  (← IO.getStdout).putStr run.output
  return UInt32.ofNat run.code

end ExposureKit.Console

/-- Runs the program that the executable is named for, with the log that the environment
asks for. -/
def main (arguments : List String) : IO UInt32 := do
  let setting ← IO.getEnv "RUST_LOG"
  let name := (← IO.appPath).fileName
  ExposureKit.Console.deliver (←
    if name = some ExposureKit.DummyMaker.info.name then
      ExposureKit.Console.makeDummies setting arguments
    else ExposureKit.Console.extract setting arguments)
