import ExposureKit.Text.ControlSequence

/-!
# Command lines

Both programs take `-h`, `--help`, `-V` and `--version`; the extractor takes one
operand as well. Arguments are read from the left, and the first thing that asks
for help, asks for the version or is wrong decides. After `--` everything is an
operand.
-/

namespace ExposureKit

/-! ## What a program says about itself -/

/-- The operand of a program: its name in the usage line, and its description. -/
structure OperandInfo where
  /-- Its name. -/
  name : String
  /-- What it is for. -/
  description : String

/-- A program, as its help describes it. -/
structure ProgramInfo where
  /-- The name by which it is called. -/
  name : String
  /-- What it does. -/
  about : String
  /-- The operand that it needs, if it takes one. -/
  operand : Option OperandInfo

namespace ProgramInfo

/-- The version of both programs. -/
def version : String := "0.1.0"

/-- The usage line. -/
def usageLine (info : ProgramInfo) : String :=
  "Usage: " ++ info.name ++ (info.operand.elim "" fun operand => " " ++ operand.name)

/-- The help text. -/
def helpText (info : ProgramInfo) : String :=
  info.about ++ "\n\n" ++ info.usageLine ++ "\n\n"
    ++ (info.operand.elim "" fun operand =>
      "Arguments:\n  " ++ operand.name ++ "  " ++ operand.description ++ "\n\n")
    ++ "Options:\n  -h, --help     Print help\n  -V, --version  Print version\n"

/-- The version text. -/
def versionText (info : ProgramInfo) : String := info.name ++ " " ++ version ++ "\n"

end ProgramInfo

/-! ## What arguments ask for -/

/-- What is wrong with the arguments. -/
inductive UsageFault where
  /-- The program knows no such argument. -/
  | unexpectedArgument (argument : String)
  /-- An option that takes no value was given one. -/
  | unexpectedValue (option value : String)
  /-- The operand is missing. -/
  | operandMissing (operand : String)
  /-- The operand is the empty text. -/
  | operandEmpty (operand : String)
  deriving DecidableEq, Repr

/-- What the complaint about a fault begins with. What was given is shown without control
characters and control sequences. -/
def UsageFault.headline : UsageFault → String
  | .unexpectedArgument argument =>
    "error: unexpected argument '" ++ withoutControls argument ++ "' found"
  | .unexpectedValue option value =>
    "error: unexpected value '" ++ withoutControls value ++ "' for '" ++ option
      ++ "' found; no more were expected"
  | .operandMissing _ => "error: the following required arguments were not provided:"
  | .operandEmpty operand =>
    "error: a value is required for '" ++ operand ++ "' but none was supplied"

/-- The complaint about a fault. -/
def UsageFault.complaint (info : ProgramInfo) (fault : UsageFault) : String :=
  fault.headline ++ "\n"
    ++ (match fault with
      | .operandMissing operand => "  " ++ operand ++ "\n"
      | _ => "")
    ++ "\n" ++ info.usageLine ++ "\n\nFor more information, try '--help'.\n"

/-- What the arguments ask for. -/
inductive Request where
  /-- Print the help. -/
  | help
  /-- Print the version. -/
  | version
  /-- Do the work, with the operand if the program takes one. -/
  | work (operand : Option String)
  deriving DecidableEq, Repr

/-! ## Reading arguments -/

namespace Arguments

/-- A request is answered at once, unless the operand before it is empty. -/
def settle (info : ProgramInfo) (operand : Option String) (request : Request) :
    Except UsageFault Request :=
  match info.operand, operand with
  | some { name, .. }, some "" => .error (.operandEmpty name)
  | _, _ => .ok request

/-- Reads the letters of a cluster of short options: the first one decides. -/
def shortOptions (info : ProgramInfo) (operand : Option String) :
    List Char → Option (Except UsageFault Request)
  | [] => none
  | 'h' :: _ => some (settle info operand .help)
  | 'V' :: _ => some (settle info operand .version)
  | c :: _ => some (.error (.unexpectedArgument (String.ofList ['-', c])))

/-- Reads a long option, given without its two hyphens: a name, and after an equals
sign a value. -/
def longOption (info : ProgramInfo) (operand : Option String) (text : List Char) :
    Except UsageFault Request :=
  let name := text.takeWhile (· != '=')
  let option := String.ofList ('-' :: '-' :: name)
  let request := if option = "--help" then some Request.help
    else if option = "--version" then some Request.version else none
  match request, text.drop name.length with
  | some request, [] => settle info operand request
  | some _, _ :: value => .error (.unexpectedValue option (String.ofList value))
  | none, _ => .error (.unexpectedArgument option)

/-- Reads arguments, the operand before them being `operand`; with `plain` they are
operands whatever they look like. -/
def readFrom (info : ProgramInfo) (plain : Bool) (operand : Option String) :
    List String → Except UsageFault Request
  | [] =>
    match info.operand, operand with
    | some { name, .. }, none => .error (.operandMissing name)
    | _, _ => settle info operand (.work operand)
  | argument :: arguments =>
    let asOperand : Except UsageFault Request :=
      if info.operand.isSome && operand.isNone then
        readFrom info plain (some argument) arguments
      else .error (.unexpectedArgument argument)
    if plain then asOperand
    else match argument.toList with
      | ['-', '-'] => readFrom info true operand arguments
      | '-' :: '-' :: text => longOption info operand text
      | '-' :: letters => (shortOptions info operand letters).getD asOperand
      | _ => asOperand

/-- What the arguments of a program ask for. -/
def read (info : ProgramInfo) (arguments : List String) : Except UsageFault Request :=
  readFrom info false none arguments

end Arguments

end ExposureKit
