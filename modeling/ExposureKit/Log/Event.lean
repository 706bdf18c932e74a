/-!
# Events

An event is something that a program may log: a message of some part of the program,
with fields that have names and values. The message counts as a field of its own.
-/

namespace ExposureKit

/-- How much an event matters: of the five levels `trace` comes last. -/
inductive LogLevel where
  /-- Something went wrong. -/
  | error
  /-- Something may be wrong. -/
  | warn
  /-- Something worth knowing. -/
  | info
  /-- Something that helps to find a fault. -/
  | debug
  /-- A step on the way. -/
  | trace
  deriving DecidableEq, Repr

namespace LogLevel

/-- The place of a level among the five, from 1. -/
def rank : LogLevel → Nat
  | .error => 1
  | .warn => 2
  | .info => 3
  | .debug => 4
  | .trace => 5

/-- The name of a level, as the log shows it. -/
def label : LogLevel → String
  | .error => "ERROR"
  | .warn => "WARN"
  | .info => "INFO"
  | .debug => "DEBUG"
  | .trace => "TRACE"

end LogLevel

/-- Something that a program may log. -/
structure LogEvent where
  /-- How much it matters. -/
  level : LogLevel
  /-- The part of the program that it comes from. -/
  target : String
  /-- What it says. -/
  message : String
  /-- Names and values that go with the message. -/
  fields : List (String × String)
  deriving DecidableEq, Repr

namespace LogEvent

/-- The name under which the message counts as a field. -/
def messageField : String := "message"

/-- The event has a field of this name. -/
def hasField (event : LogEvent) (name : String) : Bool :=
  name == messageField || event.fields.any (·.1 == name)

/-- The line that the log shows for an event. -/
def line (event : LogEvent) : String :=
  event.level.label ++ " " ++ event.target ++ ": " ++ event.message
    ++ String.join (event.fields.map fun (name, value) => " " ++ name ++ "=" ++ value)

end LogEvent

end ExposureKit
