import ExposureKit.Night.Generation

/-!
# The names that are planned

Which names are drawn for a list of dates does not depend on the place where the files are to
go.  `drawAll` draws one name for each date of a list, all from one sequence of random words;
`planned` has the names of a whole generation, in which each date is repeated as often as it
gets exposures, `plannedFiles` what the files are called, `plannedReport` the report on them, and
`wordsAfter` the words that are left.

* `length_planned`: how many names there are.
* `map_date_planned`: they have the dates for which they were drawn.
* `planned_cons`, `wordsAfter_cons`: the names of the first night, and those of the others.
-/

namespace ExposureKit.Generation

/-- Draws a name for a date: only the date is set, and the other fields have their defaults. -/
def drawName (date : Date) (words : RandomWords) : ExposureName × RandomWords :=
  (Draft.ofSettings [.date date]).complete date words

/-- Draws a name for each date, one after the other. -/
def drawAll : (dates : List Date) → RandomWords → List ExposureName × RandomWords
  | [], words => ([], words)
  | date :: dates, words =>
    let (name, words) := drawName date words
    let (names, words) := drawAll dates words
    (name :: names, words)

/-- The dates, each as often as exposures are made for it. -/
def nightly (perNight : Nat) (dates : List Date) : List Date :=
  dates.flatMap (List.replicate perNight)

/-- The names of all exposures, in the order in which they are drawn. -/
def planned (perNight : Nat) (dates : List Date) (words : RandomWords) : List ExposureName :=
  (drawAll (nightly perNight dates) words).1

/-- What the files of all exposures are called, in that order. -/
def plannedFiles (perNight : Nat) (dates : List Date) (words : RandomWords) : List String :=
  (planned perNight dates words).map ExposureName.fileName

/-- The report on a generation in which nothing is in the way. -/
def plannedReport (perNight : Nat) (dates : List Date) (words : RandomWords) : GenerationReport :=
  ⟨plannedFiles perNight dates words, NightSummary.empty.recordAll (planned perNight dates words)⟩

/-- The words that are left when all names have been drawn. -/
def wordsAfter (perNight : Nat) (dates : List Date) (words : RandomWords) : RandomWords :=
  (drawAll (nightly perNight dates) words).2

/-! ## Drawing -/

theorem drawAll_cons (date : Date) (dates : List Date) (words : RandomWords) :
    drawAll (date :: dates) words =
      ((drawName date words).1 :: (drawAll dates (drawName date words).2).1,
        (drawAll dates (drawName date words).2).2) := rfl

theorem drawNames_succ (date : Date) (count : Nat) (words : RandomWords) :
    drawNames date (count + 1) words =
      ((drawName date words).1 :: (drawNames date count (drawName date words).2).1,
        (drawNames date count (drawName date words).2).2) := rfl

theorem drawAll_append (dates more : List Date) (words : RandomWords) :
    drawAll (dates ++ more) words =
      ((drawAll dates words).1 ++ (drawAll more (drawAll dates words).2).1,
        (drawAll more (drawAll dates words).2).2) := by
  induction dates generalizing words with
  | nil => rfl
  | cons date dates ih =>
    rw [List.cons_append, drawAll_cons, drawAll_cons, ih]
    rfl

/-- The names have the dates for which they are drawn. -/
theorem map_date_drawAll (dates : List Date) (words : RandomWords) :
    (drawAll dates words).1.map ExposureName.date = dates := by
  induction dates generalizing words with
  | nil => rfl
  | cons date dates ih =>
    rw [drawAll_cons, List.map_cons, ih]
    rfl

theorem length_drawAll (dates : List Date) (words : RandomWords) :
    (drawAll dates words).1.length = dates.length := by
  have hlength := congrArg List.length (map_date_drawAll dates words)
  rwa [List.length_map] at hlength

/-- A night draws its names as if its date were repeated. -/
theorem drawNames_eq (date : Date) (count : Nat) (words : RandomWords) :
    drawNames date count words = drawAll (List.replicate count date) words := by
  induction count generalizing words with
  | zero => rfl
  | succ count ih =>
    rw [drawNames_succ, List.replicate_succ, drawAll_cons, ih]

/-! ## Planning -/

variable (perNight : Nat) (date : Date) (dates : List Date) (words : RandomWords)

theorem length_nightly : (nightly perNight dates).length = dates.length * perNight := by
  unfold nightly
  rw [List.length_flatMap]
  simp only [List.length_replicate, List.map_const', List.sum_replicate_nat]

/-- There may be nothing to make: no date, or no exposure for a date. -/
theorem nightly_of_length_eq_zero (hzero : dates.length * perNight = 0) :
    nightly perNight dates = [] := by
  rw [← length_nightly] at hzero
  exact List.eq_nil_of_length_eq_zero hzero

theorem plannedReport_of_length_eq_zero (hzero : dates.length * perNight = 0) :
    plannedReport perNight dates words = nothing := by
  unfold plannedReport plannedFiles planned
  rw [nightly_of_length_eq_zero perNight dates hzero]
  rfl

theorem wordsAfter_of_length_eq_zero (hzero : dates.length * perNight = 0) :
    wordsAfter perNight dates words = words := by
  unfold wordsAfter
  rw [nightly_of_length_eq_zero perNight dates hzero]
  rfl

theorem length_planned : (planned perNight dates words).length = dates.length * perNight := by
  unfold planned
  rw [length_drawAll, length_nightly]

theorem length_plannedFiles :
    (plannedFiles perNight dates words).length = dates.length * perNight := by
  rw [plannedFiles, List.length_map, length_planned]

theorem map_date_planned :
    (planned perNight dates words).map ExposureName.date = nightly perNight dates :=
  map_date_drawAll (nightly perNight dates) words

theorem drawAll_nightly_cons :
    drawAll (nightly perNight (date :: dates)) words =
      ((drawNames date perNight words).1 ++
          planned perNight dates (drawNames date perNight words).2,
        wordsAfter perNight dates (drawNames date perNight words).2) := by
  rw [nightly, List.flatMap_cons, drawAll_append, drawNames_eq]
  rfl

/-- The names of the first night come first. -/
theorem planned_cons :
    planned perNight (date :: dates) words =
      (drawNames date perNight words).1 ++
        planned perNight dates (drawNames date perNight words).2 := by
  rw [planned, drawAll_nightly_cons]

theorem plannedFiles_cons :
    plannedFiles perNight (date :: dates) words =
      (drawNames date perNight words).1.map ExposureName.fileName ++
        plannedFiles perNight dates (drawNames date perNight words).2 := by
  rw [plannedFiles, planned_cons, List.map_append]
  rfl

/-- The words of the first night are drawn first. -/
theorem wordsAfter_cons :
    wordsAfter perNight (date :: dates) words =
      wordsAfter perNight dates (drawNames date perNight words).2 := by
  rw [wordsAfter, drawAll_nightly_cons]

theorem length_drawNames : (drawNames date perNight words).1.length = perNight := by
  rw [drawNames_eq, length_drawAll, List.length_replicate]

end ExposureKit.Generation
