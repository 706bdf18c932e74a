import ExposureKit.Proofs.Exposure.NameText
import ExposureKit.Proofs.Night.GenerationRuns
import ExposureKit.Proofs.Night.SummaryRuns

/-!
# Summaries and the files they are about

A summary is made from the names as they are drawn, and the directory has the files, of which a
name that was drawn twice is one.  As names are read back from files (`read?_fileName`), what a
directory tells by the names of its files is the names that were drawn, without their order and
their repetitions (`mem_exposures_iff`).  The latest exposure of a night depends on no more than
that (`IsLatest.of_mem_iff`).

The main result is `summary_tells_files`.
-/

namespace ExposureKit

/-! ## Exposures in a directory -/

namespace Directory

variable {directory files : Directory} {text : String} {entry : Entry} {content : List UInt8}
  {name : ExposureName} {names : List ExposureName}

/-- The exposures of which a directory has files, as the names of the files tell them. -/
def exposures (directory : Directory) : List ExposureName :=
  directory.entries.filterMap fun
    | (text, .file _) => ExposureName.read? text.toList
    | (_, .directory) => none

theorem mem_entries_of_get? (h : directory.get? text = some entry) :
    (text, entry) ∈ directory.entries := by
  unfold get? at h
  obtain ⟨front, back, hsplit, -⟩ := List.lookup_eq_some_iff.1 h
  rw [hsplit]
  exact List.mem_append_right _ List.mem_cons_self

theorem get?_ne_none_of_mem (h : (text, entry) ∈ directory.entries) :
    directory.get? text ≠ none := by
  unfold get?
  intro hnone
  have hne := List.lookup_eq_none_iff.1 hnone (text, entry) h
  exact bne_iff_ne.1 hne rfl

theorem mem_exposures_of_get? (hget : directory.get? text = some (.file content))
    (hread : ExposureName.read? text.toList = some name) : name ∈ directory.exposures :=
  List.mem_filterMap.2 ⟨(text, .file content), mem_entries_of_get? hget, hread⟩

theorem exists_of_mem_exposures (h : name ∈ directory.exposures) :
    ∃ text, directory.get? text ≠ none ∧ ExposureName.read? text.toList = some name := by
  obtain ⟨⟨text, entry⟩, hmem, hread⟩ := List.mem_filterMap.1 h
  cases entry with
  | file content => exact ⟨text, get?_ne_none_of_mem hmem, hread⟩
  | directory => cases hread

/-- A directory that was empty holds the files it gained. -/
theorem GainsFiles.get?_ne_none_iff
    (h : Directory.empty.GainsFiles (names.map (·.fileName)) files) :
    files.get? text ≠ none ↔ ∃ name ∈ names, name.fileName = text := by
  rw [h.get?_eq, ← List.mem_map]
  by_cases hmem : text ∈ names.map (·.fileName)
  · simp [hmem]
  · rw [if_neg hmem]
    exact iff_of_false (fun hne => hne rfl) hmem

/-- The exposures in a directory that was empty are those whose files it gained. -/
theorem GainsFiles.mem_exposures_iff
    (h : Directory.empty.GainsFiles (names.map (·.fileName)) files) :
    name ∈ files.exposures ↔ name ∈ names := by
  constructor
  · intro hname
    obtain ⟨text, hget, hread⟩ := exists_of_mem_exposures hname
    obtain ⟨other, hother, rfl⟩ := h.get?_ne_none_iff.1 hget
    rw [ExposureName.read?_fileName] at hread
    rwa [← Option.some.inj hread]
  · intro hname
    have hget : files.get? name.fileName = some (.file []) := by
      rw [h.get?_eq, if_pos (List.mem_map_of_mem hname)]
    exact mem_exposures_of_get? hget (ExposureName.read?_fileName name)

end Directory

/-! ## The latest exposures on disk -/

namespace Generation

variable {perNight : Nat} {dates : List Date} {words : RandomWords}

/-- Nothing is in the way in an empty directory. -/
theorem run_empty (perNight : Nat) (dates : List Date) (words : RandomWords) :
    ∃ files, Directory.empty.GainsFiles (plannedFiles perNight dates words) files ∧
      run (.directory .empty) dates perNight words =
        ⟨.directory files, wordsAfter perNight dates words,
          .ok (plannedReport perNight dates words)⟩ := by
  refine run_of_free ?_
  intro file _
  rfl

/-- The nights of the planned names are those of the dates. -/
theorem exists_planned_night_iff (hperNight : 0 < perNight) (night : String) :
    (∃ name ∈ planned perNight dates words, name.night = night) ↔
      ∃ date ∈ dates, String.ofList date.text = night := by
  have hdate : ∀ date, date ∈ dates ↔ ∃ name ∈ planned perNight dates words, name.date = date := by
    intro date
    rw [← List.mem_map, map_date_planned, nightly, List.mem_flatMap]
    simp only [List.mem_replicate]
    constructor
    · intro hmem
      exact ⟨date, hmem, hperNight.ne', rfl⟩
    · rintro ⟨other, hother, -, rfl⟩
      exact hother
  constructor
  · rintro ⟨name, hname, hnight⟩
    exact ⟨name.date, (hdate name.date).2 ⟨name, hname, rfl⟩, hnight⟩
  · rintro ⟨date, hmem, hnight⟩
    obtain ⟨name, hname, rfl⟩ := (hdate date).1 hmem
    exact ⟨name, hname, hnight⟩

/-- **The summary of a run tells what its files tell.**  In an empty directory a run makes its
files, each of them called by a name that reads back.  The nights of the summary are those of the
files, and of the dates; and what the summary gives for a night is the latest exposure of that
night among the files, however often its name was drawn. -/
theorem summary_tells_files (dates : List Date) (hperNight : 0 < perNight) (words : RandomWords) :
    ∃ files report,
      run (.directory .empty) dates perNight words =
        ⟨.directory files, wordsAfter perNight dates words, .ok report⟩ ∧
      (∀ text, files.get? text ≠ none ↔ ∃ name ∈ files.exposures, name.fileName = text) ∧
      (∀ night, night ∈ report.summary.keys ↔ ∃ name ∈ files.exposures, name.night = night) ∧
      (∀ night maxima, report.summary.get? night = some maxima ↔
        NightSummary.IsLatest files.exposures night maxima) ∧
      ∀ night, night ∈ report.summary.keys ↔ ∃ date ∈ dates, String.ofList date.text = night := by
  obtain ⟨files, hgains, hrun⟩ := run_empty perNight dates words
  have hexposures : ∀ name, name ∈ files.exposures ↔ name ∈ planned perNight dates words := by
    intro name
    exact hgains.mem_exposures_iff
  have hkeys : ∀ night,
      night ∈ (plannedReport perNight dates words).summary.keys ↔
        ∃ name ∈ planned perNight dates words, name.night = night := by
    intro night
    rw [plannedReport, NightSummary.keys_recordAll, List.mem_eraseDups, List.mem_map]
  refine ⟨files, _, hrun, ?_, ?_, ?_, ?_⟩
  · intro text
    simp only [hexposures]
    exact hgains.get?_ne_none_iff
  · intro night
    simp only [hexposures]
    exact hkeys night
  · intro night maxima
    rw [plannedReport, NightSummary.get?_recordAll_eq_some_iff]
    constructor
    · intro h
      exact h.of_mem_iff fun name => (hexposures name).symm
    · intro h
      exact h.of_mem_iff hexposures
  · intro night
    rw [hkeys, exists_planned_night_iff hperNight]

/-- Words that begin anew after four. -/
def repeatingWords : RandomWords := .ofSequence fun i => 1800000000 * UInt32.ofNat (i % 4)

/-- Two nights, and the first of them again. -/
def repeatedNights : List Date := nightsOfNewYear.take 2 ++ nightsOfNewYear.take 1

/-- The summary of three exposures for each of them. -/
def repeatedSummary : NightSummary := ⟨[("20230102", ⟨8, 25⟩), ("20230101", ⟨8, 25⟩)]⟩

/-- Of the nine names of these nights, two of them for one date, four are different. -/
theorem summary_tells_files_repeated_names :
    0 < 3 ∧ ∃ files report,
      run (.directory .empty) repeatedNights 3 repeatingWords =
        ⟨.directory files, wordsAfter 3 repeatedNights repeatingWords, .ok report⟩ ∧
      report.summary = repeatedSummary ∧
      NightSummary.IsLatest files.exposures "20230102" ⟨8, 25⟩ := by
  refine ⟨by decide, ?_⟩
  obtain ⟨files, report, hrun, -, -, hlatest, -⟩ :=
    summary_tells_files repeatedNights (by decide : 0 < 3) repeatingWords
  have hsummary : (run (.directory .empty) repeatedNights 3 repeatingWords).result.map
      (·.summary) = .ok repeatedSummary := rfl
  rw [hrun] at hsummary
  have hreport : report.summary = repeatedSummary := Except.ok.inj hsummary
  refine ⟨files, report, hrun, hreport, (hlatest _ _).1 ?_⟩
  rw [hreport]
  rfl

end Generation

end ExposureKit
