import Mathlib.Data.List.Nodup
import ExposureKit.Storage.Directory

/-!
# Files created one after the other

A directory gains files when it gets an empty file for each of some names and everything else
stays (`GainsFiles`).  To gain files in two steps is to gain them all, and no name is blocked
by files, so that which names are free does not change while files are created.

* `createAll_of_isFree`: in a directory, names become files as long as they are free.
* `createAll_of_not_isFree`: the first name that a directory has taken stops it.
* `createAll_of_refuses`: where no file can be created, the first name stops it.
-/

namespace ExposureKit

namespace Directory

variable {directory before between after : Directory} {names more : List String} {name : String}

/-- The names of the entries. -/
def entryNames (directory : Directory) : List String := directory.entries.map Prod.fst

/-- A file of this name can be created: no directory has taken it. -/
def isFree (directory : Directory) (name : String) : Bool :=
  directory.get? name != some .directory

theorem isFree_eq_true_iff :
    directory.isFree name = true ↔ directory.get? name ≠ some .directory :=
  bne_iff_ne

theorem isFree_eq_false_iff :
    directory.isFree name = false ↔ directory.get? name = some .directory :=
  bne_eq_false_iff_eq

/-- Of names among which not all are free, some first one is not. -/
theorem exists_first_blocked (h : ∃ name ∈ names, directory.get? name = some .directory) :
    ∃ made blocked rest, names = made ++ blocked :: rest ∧
      (∀ name ∈ made, directory.isFree name = true) ∧ directory.isFree blocked = false := by
  obtain ⟨name, hname, hget⟩ := h
  have hsome : (names.find? fun name => !directory.isFree name).isSome = true := by
    rw [List.find?_isSome]
    exact ⟨name, hname, by rw [isFree_eq_false_iff.2 hget]; rfl⟩
  obtain ⟨blocked, hblocked⟩ := Option.isSome_iff_exists.1 hsome
  obtain ⟨hnot, made, rest, hsplit, hmade⟩ := List.find?_eq_some_iff_append.1 hblocked
  refine ⟨made, blocked, rest, hsplit, ?_, by simpa using hnot⟩
  intro name hname
  simpa using hmade name hname

theorem create_of_isFree (h : directory.isFree name = true) :
    directory.create name = .ok (directory.put name (.file [])) := by
  unfold create
  split
  · next hget => exact absurd hget (isFree_eq_true_iff.1 h)
  · rfl

theorem create_of_not_isFree (h : directory.isFree name = false) :
    directory.create name = .error .isDirectory := by
  unfold create
  rw [isFree_eq_false_iff.1 h]

/-! ## Names -/

/-- An entry is put where its name is, or behind all others. -/
theorem entryNames_put (directory : Directory) (name : String) (entry : Entry) :
    (directory.put name entry).entryNames =
      if name ∈ directory.entryNames then directory.entryNames
      else directory.entryNames ++ [name] := by
  obtain ⟨entries⟩ := directory
  unfold put entryNames
  dsimp only
  induction entries with
  | nil => simp [putIn]
  | cons other entries ih =>
    rw [putIn]
    by_cases hname : name = other.1
    · simp [hname]
    · rw [if_neg hname, List.map_cons, List.map_cons, ih]
      by_cases hmem : name ∈ entries.map Prod.fst
      · rw [if_pos hmem, if_pos (List.mem_cons_of_mem _ hmem)]
      · rw [if_neg hmem, if_neg (by simpa [hname] using hmem), List.cons_append]

/-- No entry is put beside another of its name. -/
theorem nodup_entryNames_put (h : directory.entryNames.Nodup) (name : String) (entry : Entry) :
    (directory.put name entry).entryNames.Nodup := by
  rw [entryNames_put]
  split
  · exact h
  · next hmem =>
    rw [← List.concat_eq_append]
    exact h.concat hmem

/-! ## Gaining files -/

/-- The directory `after` is `before` with an empty file for each of the names. -/
structure GainsFiles (before : Directory) (names : List String) (after : Directory) : Prop where
  /-- The names stand for empty files, and all others for what they stood for. -/
  get?_eq : ∀ name, after.get? name = if name ∈ names then some (.file []) else before.get? name
  /-- There is still one entry for a name. -/
  nodup : before.entryNames.Nodup → after.entryNames.Nodup

theorem GainsFiles.refl (directory : Directory) : directory.GainsFiles [] directory := by
  constructor
  · intro name
    rw [if_neg List.not_mem_nil]
  · exact id

theorem gainsFiles_put (directory : Directory) (name : String) :
    directory.GainsFiles [name] (directory.put name (.file [])) := by
  constructor
  · intro other
    rw [get?_put]
    simp only [List.mem_singleton]
  · intro h
    exact nodup_entryNames_put h name _

theorem GainsFiles.trans (h : before.GainsFiles names between)
    (hmore : between.GainsFiles more after) : before.GainsFiles (names ++ more) after := by
  constructor
  · intro name
    rw [hmore.get?_eq, h.get?_eq]
    by_cases hname : name ∈ more
    · rw [if_pos hname, if_pos (List.mem_append_right _ hname)]
    · rw [if_neg hname]
      simp only [List.mem_append, hname, or_false]
  · intro hnodup
    exact hmore.nodup (h.nodup hnodup)

/-- Files in free places leave the same names free. -/
theorem GainsFiles.isFree_eq (h : before.GainsFiles names after)
    (hfree : ∀ name ∈ names, before.isFree name = true) : after.isFree = before.isFree := by
  funext name
  by_cases hname : name ∈ names
  · rw [hfree name hname, isFree_eq_true_iff, h.get?_eq, if_pos hname]
    exact nofun
  · unfold isFree
    rw [h.get?_eq, if_neg hname]

end Directory

/-! ## Places -/

namespace Place

open Directory

theorem createAll_cons_of_ok {place next : Place} {name : String}
    (h : place.create name = .ok next) (names : List String) :
    place.createAll (name :: names) = next.createAll names := by
  rw [createAll, h]

theorem createAll_cons_of_error {place : Place} {fault : FileFault} {name : String}
    (h : place.create name = .error fault) (names : List String) :
    place.createAll (name :: names) = (place, some fault) := by
  rw [createAll, h]

/-- Free names become files, and then it goes on in the directory that has them. -/
theorem createAll_append {directory : Directory} {names : List String}
    (hfree : ∀ name ∈ names, directory.isFree name = true) :
    ∃ after, directory.GainsFiles names after ∧ ∀ rest,
      (Place.directory directory).createAll (names ++ rest) =
        (Place.directory after).createAll rest := by
  induction names generalizing directory with
  | nil => exact ⟨directory, .refl directory, fun _ => rfl⟩
  | cons name names ih =>
    have hname := hfree name List.mem_cons_self
    have hcreate : (Place.directory directory).create name =
        .ok (.directory (directory.put name (.file []))) := by
      rw [create, create_of_isFree hname]
      rfl
    have hput := gainsFiles_put directory name
    have hsame : (directory.put name (.file [])).isFree = directory.isFree := by
      refine hput.isFree_eq ?_
      intro other hother
      rw [List.mem_singleton.1 hother, hname]
    have hrest : ∀ other ∈ names, (directory.put name (.file [])).isFree other = true := by
      intro other hother
      rw [hsame]
      exact hfree other (List.mem_cons_of_mem _ hother)
    obtain ⟨after, hgains, hall⟩ := ih hrest
    refine ⟨after, hput.trans hgains, ?_⟩
    intro rest
    rw [List.cons_append, createAll_cons_of_ok hcreate, hall]

/-- Where all names are free, they all become files. -/
theorem createAll_of_isFree {directory : Directory} {names : List String}
    (hfree : ∀ name ∈ names, directory.isFree name = true) :
    ∃ after, directory.GainsFiles names after ∧
      (Place.directory directory).createAll names = (.directory after, none) := by
  obtain ⟨after, hgains, hall⟩ := createAll_append hfree
  refine ⟨after, hgains, ?_⟩
  rw [← List.append_nil names, hall]
  rfl

/-- The first name that is not free stops it, behind those in front of it. -/
theorem createAll_of_not_isFree {directory : Directory} {names : List String} {name : String}
    (hfree : ∀ name ∈ names, directory.isFree name = true)
    (hname : directory.isFree name = false) (rest : List String) :
    ∃ after, directory.GainsFiles names after ∧
      (Place.directory directory).createAll (names ++ name :: rest) =
        (.directory after, some .isDirectory) := by
  obtain ⟨after, hgains, hall⟩ := createAll_append hfree
  have hblocked : after.isFree name = false := by
    rw [hgains.isFree_eq hfree, hname]
  have hcreate : (Place.directory after).create name = .error .isDirectory := by
    rw [create, create_of_not_isFree hblocked]
    rfl
  refine ⟨after, hgains, ?_⟩
  rw [hall, createAll_cons_of_error hcreate]

/-- No file can be created in the place, for this reason. -/
def Refuses (place : Place) (fault : FileFault) : Prop :=
  ∀ name, place.create name = .error fault

theorem missing_refuses : missing.Refuses .notFound := fun _ => rfl

theorem file_refuses : file.Refuses .notDirectory := fun _ => rfl

/-- A place that refuses files refuses the first. -/
theorem createAll_of_refuses {place : Place} {fault : FileFault} (h : place.Refuses fault)
    {names : List String} (hne : names ≠ []) : place.createAll names = (place, some fault) := by
  obtain ⟨name, rest, rfl⟩ := List.exists_cons_of_ne_nil hne
  exact createAll_cons_of_error (h name) rest

end Place

end ExposureKit
