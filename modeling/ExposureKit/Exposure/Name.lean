import ExposureKit.Calendar.Date

/-!
# Names of exposure files

The name of an exposure file tells what it holds, as in `c_e_20070830_11_10_1_0.fits`:
instrument, kind of exposure, date, the numbers of the multi-run, the run, the
window and the processing, and after a dot the extension. Numbers are not padded.

`text` writes a name and `read?` reads it. The codes at the front have a fixed place,
so that they may be any character; the extension is all that follows the dot.
-/

namespace ExposureKit

/-- What the name of an exposure file tells. -/
structure ExposureName where
  /-- The code of the instrument. -/
  instrument : Char
  /-- The code of the kind of exposure. -/
  exposure : Char
  /-- The date of the night. -/
  date : Date
  /-- The number of the multi-run. -/
  multiRun : UInt32
  /-- The number of the run in its multi-run. -/
  run : UInt32
  /-- The number of the window. -/
  window : UInt32
  /-- How far the exposure has been processed. -/
  processing : UInt32
  /-- The extension of the file. -/
  extension : String
  deriving DecidableEq

namespace ExposureName

/-! ## Writing -/

/-- The decimal digits of a number. -/
def numberText (n : UInt32) : List Char := Decimal.digits n.toNat

/-- The name, with `date` in the place of the date. -/
def textDated (date : List Char) (name : ExposureName) : List Char :=
  name.instrument :: '_' :: name.exposure :: '_' :: (date ++ '_' :: numberText name.multiRun
    ++ '_' :: numberText name.run ++ '_' :: numberText name.window
    ++ '_' :: numberText name.processing ++ '.' :: name.extension.toList)

/-- The text of a name. -/
def text (name : ExposureName) : List Char := name.textDated name.date.text

/-- The text of a name, as a file is called. -/
def fileName (name : ExposureName) : String := String.ofList name.text

/-- The text of the date, which is what nights are told apart by. -/
def night (name : ExposureName) : String := String.ofList name.date.text

/-! ## Reading -/

/-- The number of a text of digits, if it is small enough. -/
def readNumber? (text : List Char) : Option UInt32 :=
  (Decimal.read? text).bind fun n => if n < UInt32.size then some (UInt32.ofNat n) else none

/-- What stands before and after the first `separator`, if there is one. -/
def splitFirst (separator : Char) (text : List Char) : Option (List Char × List Char) :=
  match text.dropWhile (· != separator) with
  | [] => none
  | _ :: rest => some (text.takeWhile (· != separator), rest)

/-- Reads the text of a name. -/
def read? : List Char → Option ExposureName
  | instrument :: '_' :: exposure :: '_' :: rest => do
    let (date, rest) ← splitFirst '_' rest
    let (multiRun, rest) ← splitFirst '_' rest
    let (run, rest) ← splitFirst '_' rest
    let (window, rest) ← splitFirst '_' rest
    let (processing, extension) ← splitFirst '.' rest
    pure { instrument, exposure
           date := ← Date.read? date
           multiRun := ← readNumber? multiRun
           run := ← readNumber? run
           window := ← readNumber? window
           processing := ← readNumber? processing
           extension := String.ofList extension }
  | _ => none

end ExposureName

end ExposureKit
