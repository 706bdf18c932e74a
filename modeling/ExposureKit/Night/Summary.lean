import ExposureKit.Exposure.Name
import ExposureKit.Night.Maxima
import ExposureKit.Text.Split

/-!
# Summaries of nights

A summary holds the largest identifiers of each night, in the order in which the
nights were first recorded. `text` writes it, three lines a night, and `read?` reads
such a text.
-/

namespace ExposureKit

/-- The nights recorded, by the text of their dates, with their largest identifiers. -/
structure NightSummary where
  /-- The nights in the order in which they were first recorded. -/
  nights : List (String × RunMaxima)
  deriving DecidableEq, Repr

namespace NightSummary

/-- No night recorded. -/
def empty : NightSummary := ⟨[]⟩

/-- Records an exposure among the nights: observes it where its night is known, and
adds its night at the end where it is not. -/
def recordIn (night : String) (multiRun run : UInt32) :
    List (String × RunMaxima) → List (String × RunMaxima)
  | [] => [(night, ⟨multiRun, run⟩)]
  | (known, maxima) :: nights =>
    if known = night then (known, maxima.observe multiRun run) :: nights
    else (known, maxima) :: recordIn night multiRun run nights

/-- Records one more exposure. -/
def record (summary : NightSummary) (name : ExposureName) : NightSummary :=
  ⟨recordIn name.night name.multiRun name.run summary.nights⟩

/-- Records exposures one after the other. -/
def recordAll (summary : NightSummary) (names : List ExposureName) : NightSummary :=
  names.foldl record summary

/-- The largest identifiers of a night. -/
def get? (summary : NightSummary) (night : String) : Option RunMaxima :=
  summary.nights.lookup night

/-- The number of nights. -/
def size (summary : NightSummary) : Nat := summary.nights.length

/-- No night was recorded. -/
def isEmpty (summary : NightSummary) : Bool := summary.nights.isEmpty

/-! ## The text of a summary -/

/-- What stands before the date of a night. -/
def nightLead : List Char := "Max identifiers for date ".toList

/-- What stands before the largest multi-run. -/
def multiRunLead : List Char := "\tmax_mr -> ".toList

/-- What stands before the largest run. -/
def runLead : List Char := "\tmax_r -> ".toList

/-- The three lines on a night. -/
def nightLines (night : String) (maxima : RunMaxima) : List (List Char) :=
  [nightLead ++ night.toList,
   multiRunLead ++ ExposureName.numberText maxima.multiRun,
   runLead ++ ExposureName.numberText maxima.run]

/-- The lines of a summary. -/
def lines (summary : NightSummary) : List (List Char) :=
  summary.nights.flatMap fun (night, maxima) => nightLines night maxima

/-- The text of a summary: its lines, a line feed after each. -/
def text (summary : NightSummary) : List Char := summary.lines.flatMap (· ++ ['\n'])

/-! ## Reading a summary -/

/-- The lines of a text in which every line ends with a line feed. -/
def splitLines (text : List Char) : Option (List (List Char)) :=
  let parts := splitOn '\n' text
  -- behind the line feed that ends the last line there is nothing
  if parts.getLast? = some [] then some parts.dropLast else none

/-- What follows `lead` in a line that begins with it. -/
def afterLead? (lead line : List Char) : Option (List Char) :=
  if lead.isPrefixOf line then some (line.drop lead.length) else none

/-- The nights on which lines tell, three lines each. -/
def readNights? : List (List Char) → Option (List (String × RunMaxima))
  | [] => some []
  | first :: second :: third :: rest => do
    let night ← afterLead? nightLead first
    let multiRun ← ExposureName.readNumber? (← afterLead? multiRunLead second)
    let run ← ExposureName.readNumber? (← afterLead? runLead third)
    let nights ← readNights? rest
    pure ((String.ofList night, ⟨multiRun, run⟩) :: nights)
  | _ => none

/-- The summary that a text writes. -/
def read? (text : List Char) : Option NightSummary := do
  let nights ← readNights? (← splitLines text)
  pure ⟨nights⟩

end NightSummary

end ExposureKit
