import ExposureKit.Night.Generation
import ExposureKit.Program.Run

/-!
# The dummy maker

The dummy maker makes empty exposure files for today and the days before it, and
prints the largest identifiers of each night.
-/

namespace ExposureKit.DummyMaker

/-- The dummy maker, as its help describes it. -/
def info : ProgramInfo :=
  ⟨"make-dummy-fits",
    "Create empty, randomly numbered FITS files for today and the two days before", none⟩

/-- The log target of the program. -/
def programTarget : String := "make_dummy_fits"

/-- Makes the exposures of the nights up to today. -/
def generate (place : Place) (today : Date) (words : RandomWords) : Generation :=
  Generation.run place (today.lastDays Generation.nightCount) Generation.exposuresPerNight words

/-- The run that ends with this result. -/
def runOn (log : Log) : Except FileFault GenerationReport → ProgramRun
  | .error fault => .failing log "failed to create dummy fits files" fault.message
  | .ok report =>
    .working log
      [⟨.info, programTarget, "dummy fits files created",
        [("files", toString report.created.length)]⟩]
      0 (String.ofList report.summary.text)

/-- The run with these arguments in a working directory, and the directory after it;
`setting` says what is logged. -/
def run (place : Place) (today : Date) (words : RandomWords) (setting : Option String)
    (arguments : List String) : ProgramRun × Place :=
  match Startup.read info setting arguments with
  | .over run => (run, place)
  | .ready _ log =>
    let generation := generate place today words
    (runOn log generation.result, generation.place)

end ExposureKit.DummyMaker
