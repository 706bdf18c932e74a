import ExposureKit.Proofs.Night.GenerationRuns
import ExposureKit.Proofs.Night.SummaryRuns

/-!
# Generations in two parts

A generation over two lists of dates is one over the first and then, unless that fails, one over
the second, with the place and the words that the first has left.  The second part begins with
the report of the first, where a run of its own begins with the report of nothing; but which
names are drawn, and which files can be created, does not depend on the report.

* `continueWith_append`: the nights of two lists are made one list after the other.
* `continueWith_eq_withReport`: another report to begin with makes no other difference.
* `run_append`: a run in two parts, and what its report is.
* `keys_recordAll_append`, `get?_recordAll_merge`: the summary of two parts, from theirs.

The main result is `run_in_two_parts`.
-/

namespace ExposureKit

/-! ## Summaries in two parts -/

namespace NightSummary

/-- Nights that are new to a summary come behind those that it has. -/
theorem keys_recordAll_append (summary : NightSummary) (names : List ExposureName) :
    (summary.recordAll names).keys =
      summary.keys ++ (empty.recordAll names).keys.filter (· ∉ summary.keys) := by
  induction names using List.reverseRecOn with
  | nil => simp [recordAll, keys, empty]
  | append_singleton names name ih =>
    rw [recordAll_concat, recordAll_concat, keys_record, keys_record, ih]
    by_cases hknown : name.night ∈ summary.keys <;>
      by_cases hlater : name.night ∈ (empty.recordAll names).keys <;>
        simp [hknown, hlater, List.filter_append]

/-- Of a night that both parts know, the later exposure counts. -/
theorem get?_recordAll_merge (summary : NightSummary) (names : List ExposureName)
    (night : String) :
    (summary.recordAll names).get? night =
      Option.merge max (summary.get? night) ((empty.recordAll names).get? night) := by
  induction names using List.reverseRecOn with
  | nil => simp [recordAll, get?, empty]
  | append_singleton names name ih =>
    rw [recordAll_concat, recordAll_concat]
    by_cases hnight : name.night = night
    · subst hnight
      rw [get?_record_self, get?_record_self, ih]
      cases summary.get? name.night <;>
        cases (empty.recordAll names).get? name.night <;> simp [max_assoc]
    · rw [get?_record_of_ne _ hnight, get?_record_of_ne _ hnight, ih]

end NightSummary

/-- The report with further exposures made. -/
def GenerationReport.record (report : GenerationReport) (names : List ExposureName) :
    GenerationReport :=
  ⟨report.created ++ names.map ExposureName.fileName, report.summary.recordAll names⟩

theorem GenerationReport.record_nil (report : GenerationReport) : report.record [] = report := by
  simp [record, NightSummary.recordAll]

theorem GenerationReport.record_append (report : GenerationReport)
    (names more : List ExposureName) :
    report.record (names ++ more) = (report.record names).record more := by
  simp [record, NightSummary.recordAll]

namespace Generation

variable {perNight : Nat} {place : Place} {words : RandomWords} {report other : GenerationReport}

/-- Goes on from where a generation ended, unless it failed. -/
def followedBy (begun : Generation)
    (next : Place → RandomWords → GenerationReport → Generation) : Generation :=
  match begun.result with
  | .ok report => next begun.place begun.words report
  | .error _ => begun

/-- The generation with another report, if it has one. -/
def withReport (generation : Generation) (report : GenerationReport) : Generation :=
  { generation with result := generation.result.map fun _ => report }

/-! ## One list of dates after the other -/

theorem continueWith_append (first second : List Date) :
    continueWith perNight place words report (first ++ second) =
      (continueWith perNight place words report first).followedBy fun place words report =>
        continueWith perNight place words report second := by
  induction first generalizing place words report with
  | nil => simp [continueWith, followedBy]
  | cons date first ih =>
    rw [List.cons_append]
    rcases hcreated : place.createAll
      ((drawNames date perNight words).1.map ExposureName.fileName) with ⟨next, none | fault⟩
    · rw [continueWith_of_created hcreated, continueWith_of_created hcreated, ih]
    · rw [continueWith_of_fault hcreated, continueWith_of_fault hcreated]
      rfl

/-- Only the report that comes out depends on the report to begin with. -/
theorem continueWith_eq_withReport (dates : List Date) :
    continueWith perNight place words report dates =
      (continueWith perNight place words other dates).withReport
        (report.record (planned perNight dates words)) := by
  induction dates generalizing place words report other with
  | nil =>
    show _ = Generation.mk place words (.ok (report.record []))
    rw [GenerationReport.record_nil, continueWith]
  | cons date dates ih =>
    rcases hcreated : place.createAll
      ((drawNames date perNight words).1.map ExposureName.fileName) with ⟨next, none | fault⟩
    · rw [continueWith_of_created hcreated, continueWith_of_created hcreated, planned_cons,
        GenerationReport.record_append]
      exact ih
    · rw [continueWith_of_fault hcreated, continueWith_of_fault hcreated]
      rfl

/-- A run in two parts.  The second part is a run of its own, but for the report. -/
theorem run_append (place : Place) (first second : List Date) (perNight : Nat)
    (words : RandomWords) :
    run place (first ++ second) perNight words =
      (run place first perNight words).followedBy fun place words report =>
        (run place second perNight words).withReport
          (report.record (planned perNight second words)) := by
  unfold run
  rw [continueWith_append]
  congr
  funext place words report
  exact continueWith_eq_withReport second

/-! ## The main result -/

/-- **A run over two lists of dates is a run over each of them.**  If the first part fails, the
run ends with it.  If not, the second part runs in the place and with the words that the first
has left, and leaves the place and the words of the whole run.  The run fails as the second part
does; otherwise it creates the files of the one and then those of the other, and its summary has
the nights of the first part, then those that only the second has, and for each of them the
later exposure of the two parts. -/
theorem run_in_two_parts (place : Place) (first second : List Date) (perNight : Nat)
    (words : RandomWords) {begun ended : Generation}
    (hbegun : run place first perNight words = begun)
    (hended : run begun.place second perNight begun.words = ended) :
    (∀ fault, begun.result = .error fault →
      run place (first ++ second) perNight words = begun) ∧
    ∀ report, begun.result = .ok report →
      (run place (first ++ second) perNight words).place = ended.place ∧
      (run place (first ++ second) perNight words).words = ended.words ∧
      (∀ fault, ended.result = .error fault →
        (run place (first ++ second) perNight words).result = .error fault) ∧
      ∀ more, ended.result = .ok more →
        ∃ whole, (run place (first ++ second) perNight words).result = .ok whole ∧
          whole.created = report.created ++ more.created ∧
          whole.summary.keys = report.summary.keys ++
            more.summary.keys.filter (· ∉ report.summary.keys) ∧
          ∀ night, whole.summary.get? night =
            Option.merge max (report.summary.get? night) (more.summary.get? night) := by
  rw [run_append, hbegun]
  constructor
  · intro fault hfault
    rw [followedBy, hfault]
  · intro report hreport
    rw [followedBy, hreport]
    dsimp only
    rw [hended]
    refine ⟨rfl, rfl, ?_, ?_⟩
    · intro fault hfault
      rw [withReport, hfault]
      rfl
    · intro more hmore
      have hplanned : more = plannedReport perNight second begun.words := by
        apply report_of_ok
        rw [hended, hmore]
      refine ⟨report.record (planned perNight second begun.words), ?_, ?_, ?_, ?_⟩
      · rw [withReport, hmore]
        rfl
      · rw [hplanned]
        rfl
      · rw [hplanned]
        exact NightSummary.keys_recordAll_append report.summary _
      · intro night
        rw [hplanned]
        exact NightSummary.get?_recordAll_merge report.summary _ night

/-- Words that give all names the same multi-run and different runs. -/
def sameMultiRunWords : RandomWords :=
  .ofSequence fun i => if i % 2 = 0 then 2000000000 else 500000000 * UInt32.ofNat i

/-- The first two nights of a year, the latest first. -/
def firstNights : List Date := nightsOfNewYear.take 2

/-- The night of the first part comes again in the second, with the same multi-run and a later
run. -/
theorem run_in_two_parts_same_night :
    (run (.directory .empty) firstNights 1 sameMultiRunWords).result =
      .ok ⟨["c_e_20230102_4_11_1_0.fits", "c_e_20230101_4_35_1_0.fits"],
        ⟨[("20230102", ⟨4, 11⟩), ("20230101", ⟨4, 35⟩)]⟩⟩ ∧
    ∃ whole,
      (run (.directory .empty) (firstNights ++ firstNights.take 1) 1 sameMultiRunWords).result =
          .ok whole ∧
        whole.created = ["c_e_20230102_4_11_1_0.fits", "c_e_20230101_4_35_1_0.fits",
          "c_e_20230102_4_58_1_0.fits"] ∧
        whole.summary.keys = ["20230102", "20230101"] ∧
        whole.summary.get? "20230102" = some ⟨4, 58⟩ := by
  refine ⟨rfl, ?_⟩
  obtain ⟨-, hparts⟩ := run_in_two_parts (.directory .empty) firstNights (firstNights.take 1) 1
    sameMultiRunWords rfl rfl
  obtain ⟨-, -, -, hok⟩ := hparts _ rfl
  obtain ⟨whole, hwhole, hcreated, hkeys, hget⟩ := hok _ rfl
  refine ⟨whole, hwhole, hcreated, ?_, ?_⟩
  · rw [hkeys]
    decide +kernel
  · rw [hget]
    decide +kernel

end Generation

end ExposureKit
