import ExposureKit.Log.Filter
import ExposureKit.Program.Arguments

/-!
# Runs of a program

What a program does to the world besides files: its exit status, and what it writes to
the standard output and to the standard error. A run begins with the arguments and then
sets up the log, and it may be over before the work: `Startup`.
-/

namespace ExposureKit

/-- A finished run. -/
structure ProgramRun where
  /-- The exit status. -/
  code : Nat
  /-- What is written to the standard output. -/
  output : String
  /-- What is written to the standard error: the log, and a complaint. -/
  errors : String
  deriving DecidableEq, Repr

namespace ProgramRun

/-- A run that only prints. -/
def printing (text : String) : ProgramRun := ⟨0, text, ""⟩

/-- A run that ends with a fault of the arguments. -/
def misused (info : ProgramInfo) (fault : UsageFault) : ProgramRun :=
  ⟨2, "", fault.complaint info⟩

/-- A run that breaks down because the log cannot be set up. -/
def brokenDown : ProgramRun := ⟨101, "", "a log directive is cut inside a character\n"⟩

/-- What a log writes of events, a line for each. -/
def logText (log : Log) (events : List LogEvent) : String :=
  String.join ((log.lines events).map (· ++ "\n"))

/-- A run that does its work. -/
def working (log : Log) (events : List LogEvent) (code : Nat) (output : String) : ProgramRun :=
  ⟨code, output, logText log events⟩

/-- A run that fails at `what` because of `cause`. -/
def failing (log : Log) (what cause : String) : ProgramRun :=
  ⟨1, "", logText log [] ++ "Error: " ++ what ++ "\n\nCaused by:\n    " ++ cause ++ "\n"⟩

end ProgramRun

/-! ## The beginning of a run -/

/-- How a run begins. -/
inductive Startup where
  /-- It is over without any work. -/
  | over (run : ProgramRun)
  /-- The work begins, with the operand if the program takes one. -/
  | ready (operand : Option String) (log : Log)
  deriving DecidableEq, Repr

namespace Startup

/-- Begins a run with these arguments. The log is set up as `setting` says, but only for
the work: a run that ends over its arguments does not look at the setting. -/
def read (info : ProgramInfo) (setting : Option String) (arguments : List String) : Startup :=
  match Arguments.read info arguments with
  | .error fault => .over (.misused info fault)
  | .ok .help => .over (.printing info.helpText)
  | .ok .version => .over (.printing info.versionText)
  | .ok (.work operand) =>
    match Log.ofSetting? setting with
    | some log => .ready operand log
    | none => .over .brokenDown

end Startup

end ExposureKit
