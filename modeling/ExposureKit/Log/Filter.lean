import ExposureKit.Log.Directive

/-!
# Filters

A filter is a list of directives between commas. Of the directives that concern an event
the most specific one decides whether it is written: `LogFilter.allows`. A `Log` is set up
from a text, and it also knows the parts of that text that are no directives.
-/

namespace ExposureKit

/-- The directives of a filter. -/
structure LogFilter where
  /-- In the order in which they were given. -/
  directives : List LogDirective
  deriving DecidableEq, Repr

namespace LogFilter

/-! ## Deciding -/

/-- How specific two directives are: the longer target is the more specific one, and of
targets of one length the later field in the order of names. No target is less than any
target, and no field less than any field. -/
def compareSpecificity (first second : LogDirective) : Ordering :=
  let length (directive : LogDirective) := directive.target.map (·.utf8ByteSize)
  let field (directive : LogDirective) := directive.field.map (·.name)
  (compare (length first) (length second)).then (compare (field first) (field second))

/-- The directive that decides on an event: the most specific one that concerns it, and
the latest of those. -/
def deciding (filter : LogFilter) (event : LogEvent) : Option LogDirective :=
  (filter.directives.filter (·.concerns event)).foldl
    (fun best directive => match best with
      | some other =>
        if (compareSpecificity other directive).isLE then some directive else some other
      | none => some directive) none

/-- The event is written. -/
def allows (filter : LogFilter) (event : LogEvent) : Bool :=
  (filter.deciding event).any fun directive => event.level.rank ≤ directive.rank

/-! ## Reading -/

/-- The filter that writes the events of every target up to a level. -/
def upTo (level : LogLevel) : LogFilter := ⟨[⟨none, none, none, level.rank⟩]⟩

/-- The parts of a text between commas, empty ones left out. -/
def parts (text : List Char) : List (List Char) :=
  (splitOn ',' text).filter (!·.isEmpty)

end LogFilter

/-- A log that has been set up. -/
structure Log where
  /-- What it writes. -/
  filter : LogFilter
  /-- The parts of the setting that are no directives. -/
  invalid : List String
  deriving DecidableEq, Repr

namespace Log

/-- The log of a program that is told nothing writes warnings and errors. -/
def standard : Log := ⟨.upTo .warn, []⟩

/-- Sets up a log as a text says. Without any directive it writes errors; it cannot be
set up at all when a directive is cut inside a character. -/
def read? (text : String) : Option Log :=
  let readings := (LogFilter.parts text.toList).map fun part => (part, LogDirective.read part)
  let directives := readings.filterMap (·.2.toOption)
  if readings.any (·.2 matches .error .splitsCharacter) then none
  else some
    { filter := if directives.isEmpty then .upTo .error else ⟨directives⟩
      invalid := readings.filterMap fun (part, reading) =>
        match reading with
        | .ok _ => none
        | .error _ => some (String.ofList part) }

/-- Sets up a log with a setting or without one. -/
def ofSetting? : Option String → Option Log
  | none => some standard
  | some text => read? text

/-- The lines that the log shows: what is wrong with its setting, then the events that
it writes. -/
def lines (log : Log) (events : List LogEvent) : List String :=
  (log.invalid.map fun part => "ignoring `" ++ part ++ "`: invalid filter directive")
    ++ (events.filter log.filter.allows).map LogEvent.line

end Log

end ExposureKit
