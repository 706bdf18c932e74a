import ExposureKit.Exposure.Name
import ExposureKit.Exposure.RandomWords

/-!
# Drafts of names

A draft is a name of which some fields are still open. Settings fill fields, the
last one for a field counts, and completing the draft gives every open field its
default. The numbers of the multi-run and of the run have no fixed default: they
are drawn, in that order.
-/

namespace ExposureKit

/-- One field of a name, filled. -/
inductive Setting where
  /-- Sets the code of the instrument. -/
  | instrument (code : Char)
  /-- Sets the code of the kind of exposure. -/
  | exposure (code : Char)
  /-- Sets the date of the night. -/
  | date (date : Date)
  /-- Sets the number of the multi-run. -/
  | multiRun (number : UInt32)
  /-- Sets the number of the run. -/
  | run (number : UInt32)
  /-- Sets the number of the window. -/
  | window (number : UInt32)
  /-- Sets how far the exposure has been processed. -/
  | processing (number : UInt32)
  /-- Sets the extension of the file. -/
  | extension (text : String)
  deriving DecidableEq

/-- A name of which some fields are open. -/
structure Draft where
  /-- The code of the instrument, if it is set. -/
  instrument : Option Char := none
  /-- The code of the kind of exposure, if it is set. -/
  exposure : Option Char := none
  /-- The date of the night, if it is set. -/
  date : Option Date := none
  /-- The number of the multi-run, if it is set. -/
  multiRun : Option UInt32 := none
  /-- The number of the run, if it is set. -/
  run : Option UInt32 := none
  /-- The number of the window, if it is set. -/
  window : Option UInt32 := none
  /-- How far the exposure has been processed, if it is set. -/
  processing : Option UInt32 := none
  /-- The extension of the file, if it is set. -/
  extension : Option String := none
  deriving DecidableEq

namespace Draft

/-! ## Defaults -/

/-- The code of the camera. -/
def cameraCode : Char := 'c'

/-- The code of a plain exposure. -/
def plainExposureCode : Char := 'e'

/-- The first window. -/
def firstWindow : UInt32 := 1

/-- The number of a frame that has not been processed. -/
def unprocessed : UInt32 := 0

/-- The extension of the files. -/
def defaultExtension : String := "fits"

/-- Multi-runs are drawn below this number. -/
def multiRunRange : Nat := 10

/-- Runs are drawn below this number. -/
def runRange : Nat := 101

/-! ## Filling and completing -/

/-- The draft with one field filled. -/
def set (draft : Draft) : Setting → Draft
  | .instrument code => { draft with instrument := some code }
  | .exposure code => { draft with exposure := some code }
  | .date date => { draft with date := some date }
  | .multiRun number => { draft with multiRun := some number }
  | .run number => { draft with run := some number }
  | .window number => { draft with window := some number }
  | .processing number => { draft with processing := some number }
  | .extension text => { draft with extension := some text }

/-- The draft that the settings make, one after the other. -/
def ofSettings (settings : List Setting) : Draft := settings.foldl set {}

/-- The number that is set, or one drawn below `range`. -/
def numberOrDraw (number : Option UInt32) (range : Nat) (words : RandomWords) :
    UInt32 × RandomWords :=
  match number with
  | some number => (number, words)
  | none =>
    let (number, words) := words.below range
    (UInt32.ofNat number, words)

/-- The name that a draft makes on the day `today`, and the words left after the
draws. -/
def complete (draft : Draft) (today : Date) (words : RandomWords) :
    ExposureName × RandomWords :=
  let (multiRun, words) := numberOrDraw draft.multiRun multiRunRange words
  let (run, words) := numberOrDraw draft.run runRange words
  ({ instrument := draft.instrument.getD cameraCode
     exposure := draft.exposure.getD plainExposureCode
     date := draft.date.getD today
     multiRun, run
     window := draft.window.getD firstWindow
     processing := draft.processing.getD unprocessed
     extension := draft.extension.getD defaultExtension }, words)

end Draft

end ExposureKit
