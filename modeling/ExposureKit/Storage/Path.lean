import ExposureKit.Storage.Directory
import ExposureKit.Text.Split

/-!
# Reading by path

A path is followed from the working directory component by component. Of the
directories above only their existence is known, not what else they hold.
-/

namespace ExposureKit

/-- Where a path has led so far. -/
inductive Spot where
  /-- The working directory. -/
  | working
  /-- A directory in the working directory. -/
  | inner
  /-- A directory above the working directory. -/
  | outer
  /-- A file. -/
  | file (content : List UInt8)

namespace Spot

/-- The most bytes of a component. -/
def componentLimit : Nat := 255

/-- The bytes from which on a path is too long. -/
def pathLimit : Nat := 4096

/-- Follows one component. Only a directory has components below it. -/
def step (directory : Directory) (component : String) : Spot → Except FileFault Spot
  | .file _ => .error .notDirectory
  | spot =>
    if component = "" ∨ component = "." then .ok spot
    else if component = ".." then .ok (match spot with | .inner => .working | _ => .outer)
    else if componentLimit < component.utf8ByteSize then .error .nameTooLong
    else match spot with
      | .working =>
        match directory.get? component with
        | some (.file content) => .ok (.file content)
        | some .directory => .ok .inner
        | none => .error .notFound
      | _ => .error .notFound

end Spot

/-- The components of a path: what stands between slashes. -/
def pathComponents (path : String) : List String :=
  (splitOn '/' path.toList).map String.ofList

/-- Reads the file that a path leads to from the working directory `directory`. -/
def Directory.read (directory : Directory) (path : String) : Except FileFault (List UInt8) :=
  if path = "" then .error .notFound
  else if Spot.pathLimit ≤ path.utf8ByteSize then .error .nameTooLong
  else do
    let start := if path.toList.head? = some '/' then Spot.outer else Spot.working
    match ← (pathComponents path).foldlM (fun spot part => spot.step directory part) start with
    | .file content => .ok content
    | _ => .error .isDirectory

end ExposureKit
