import ExposureKit.Exposure.Draft
import ExposureKit.Night.Summary
import ExposureKit.Storage.Directory

/-!
# Making dummy exposures

For each of a list of dates, as many names are drawn as asked for, and then an
empty file is created for each. All names of a date are drawn before the first of
its files is created. The first file that cannot be created ends it; what was
created until then stays, and so do the draws.
-/

namespace ExposureKit

/-- What was made. -/
structure GenerationReport where
  /-- The names of the files, in the order of their creation; a name drawn twice
  stands here twice. -/
  created : List String
  /-- The largest identifiers of each night. -/
  summary : NightSummary
  deriving DecidableEq, Repr

/-- How making dummy exposures ended: the place and the words after it, and the
report or the fault. -/
structure Generation where
  /-- The place, with the files that were created. -/
  place : Place
  /-- The random words, without those that were drawn. -/
  words : RandomWords
  /-- What was made, or why it could not be. -/
  result : Except FileFault GenerationReport

namespace Generation

/-- The nights that the program makes exposures for: today's and those before it. -/
def nightCount : Nat := 3

/-- The exposures that the program makes for a night. -/
def exposuresPerNight : Nat := 20

/-- The report of nothing made. -/
def nothing : GenerationReport := ⟨[], .empty⟩

/-- Draws `count` names for a date. -/
def drawNames (date : Date) : (count : Nat) → RandomWords → List ExposureName × RandomWords
  | 0, words => ([], words)
  | count + 1, words =>
    let (name, words) := ({ date := some date } : Draft).complete date words
    let (names, words) := drawNames date count words
    (name :: names, words)

/-- Makes the exposures of further dates, on top of what `report` says. -/
def continueWith (perNight : Nat) (place : Place) (words : RandomWords)
    (report : GenerationReport) : (dates : List Date) → Generation
  | [] => ⟨place, words, .ok report⟩
  | date :: dates =>
    let (names, words) := drawNames date perNight words
    match place.createAll (names.map ExposureName.fileName) with
    | (place, some fault) => ⟨place, words, .error fault⟩
    | (place, none) =>
      continueWith perNight place words
        ⟨report.created ++ names.map ExposureName.fileName, report.summary.recordAll names⟩ dates

/-- Makes `perNight` dummy exposures for each of the dates. -/
def run (place : Place) (dates : List Date) (perNight : Nat) (words : RandomWords) : Generation :=
  continueWith perNight place words nothing dates

end Generation

end ExposureKit
