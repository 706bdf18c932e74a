/-!
# Directories

A directory is a list of named entries in which the first entry of a name counts.
Creating a file makes an empty one, or empties the file that has the name already;
a directory of that name is in the way. `Place` is where files are to go, which
need not be a directory.
-/

namespace ExposureKit

/-- Why a file cannot be opened, read or created. -/
inductive FileFault where
  /-- Nothing has that name. -/
  | notFound
  /-- A directory stands where a file is needed. -/
  | isDirectory
  /-- A file stands where a directory is needed. -/
  | notDirectory
  /-- A name or a path has too many bytes. -/
  | nameTooLong
  deriving DecidableEq, Repr

/-- The text of a fault, with the number of the system error. -/
def FileFault.message : FileFault → String
  | .notFound => "No such file or directory (os error 2)"
  | .isDirectory => "Is a directory (os error 21)"
  | .notDirectory => "Not a directory (os error 20)"
  | .nameTooLong => "File name too long (os error 36)"

/-- What a name stands for. -/
inductive Entry where
  /-- A regular file, by its content. -/
  | file (content : List UInt8)
  /-- A directory, empty. -/
  | directory
  deriving DecidableEq, Repr

/-- The size of a file; a directory has none. -/
def Entry.size? : Entry → Option Nat
  | .file content => some content.length
  | .directory => none

/-- The named entries of a directory. -/
structure Directory where
  /-- Names and entries; of equal names the first counts. -/
  entries : List (String × Entry)
  deriving DecidableEq, Repr

namespace Directory

/-- A directory without entries. -/
def empty : Directory := ⟨[]⟩

/-- The entry of a name. -/
def get? (directory : Directory) (name : String) : Option Entry :=
  directory.entries.lookup name

/-- Replaces the first entry of a name, or adds one at the end. -/
def putIn (name : String) (entry : Entry) : List (String × Entry) → List (String × Entry)
  | [] => [(name, entry)]
  | other :: entries =>
    if name = other.1 then (name, entry) :: entries else other :: putIn name entry entries

/-- The directory in which the name stands for the entry. -/
def put (directory : Directory) (name : String) (entry : Entry) : Directory :=
  ⟨putIn name entry directory.entries⟩

/-- Creates an empty file, or empties the one that is there. -/
def create (directory : Directory) (name : String) : Except FileFault Directory :=
  match directory.get? name with
  | some .directory => .error .isDirectory
  | _ => .ok (directory.put name (.file []))

/-- The entries in the order of their names. -/
def listing (directory : Directory) : List (String × Entry) :=
  directory.entries.mergeSort fun a b => decide (a.1 ≤ b.1)

/-- What was put under a name is found there, and other names keep what they had. -/
theorem get?_put (directory : Directory) (name other : String) (entry : Entry) :
    (directory.put name entry).get? other =
      if other = name then some entry else directory.get? other := by
  obtain ⟨entries⟩ := directory
  simp only [put, get?]
  have hbeq : ∀ n : String, (other == n) = decide (other = n) := fun n => by
    rw [Bool.eq_iff_iff, beq_iff_eq, decide_eq_true_iff]
  induction entries with
  | nil =>
    rw [putIn, List.lookup_cons, hbeq]
    by_cases h : other = name <;> simp [h]
  | cons first entries ih =>
    obtain ⟨n, e⟩ := first
    rw [putIn]
    by_cases hn : name = n
    · subst hn
      by_cases h : other = name <;> simp [h, List.lookup_cons, hbeq]
    · by_cases h : other = n
      · subst h
        simp [hn, Ne.symm hn]
      · simp only [if_neg hn, List.lookup_cons, hbeq, decide_eq_false h, ih]

end Directory

/-! ## Places -/

/-- Where files are to be created. -/
inductive Place where
  /-- A directory. -/
  | directory (directory : Directory)
  /-- A path at which there is nothing. -/
  | missing
  /-- A path at which there is a file. -/
  | file
  deriving DecidableEq, Repr

/-- Creates an empty file in a place. -/
def Place.create (place : Place) (name : String) : Except FileFault Place :=
  match place with
  | .directory d => (d.create name).map .directory
  | .missing => .error .notFound
  | .file => .error .notDirectory

/-- Creates empty files one after the other. The first fault stops it, and what was
created before stays. -/
def Place.createAll (place : Place) : List String → Place × Option FileFault
  | [] => (place, none)
  | name :: names =>
    match place.create name with
    | .ok place => place.createAll names
    | .error fault => (place, some fault)

end ExposureKit
