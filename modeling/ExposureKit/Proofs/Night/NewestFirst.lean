import ExposureKit.Proofs.Calendar.DateOrder
import ExposureKit.Proofs.Calendar.LastDays
import ExposureKit.Proofs.Night.GenerationRuns
import ExposureKit.Proofs.Night.SummaryRuns

/-!
# Summaries of the last days

A night is recorded once for each of its exposures, one after the other, and listed where it was
recorded first.  So a run that ends well lists the nights of its dates, each of them once
(`keys_plannedReport`).  The last days descend, and years of four digits have texts that are in the
order of their dates: over such dates the nights of the summary descend as well.

The main result is `nights_newest_first`.
-/

namespace ExposureKit

/-! ## Nights that are recorded again -/

namespace NightSummary

/-- A night that is repeated is listed as if it came once. -/
theorem eraseDups_append_replicate (nights : List String) (night : String) (count : Nat) :
    (nights ++ List.replicate (count + 1) night).eraseDups = (nights ++ [night]).eraseDups := by
  induction count with
  | zero => rfl
  | succ count ih =>
    have hmem : night ∈ nights ++ List.replicate (count + 1) night := by simp
    rw [List.replicate_succ', ← List.append_assoc, eraseDups_concat, if_pos hmem, ih]

theorem eraseDups_flatMap_replicate (nights : List String) (count : Nat) :
    (nights.flatMap (List.replicate (count + 1))).eraseDups = nights.eraseDups := by
  induction nights using List.reverseRecOn with
  | nil => rfl
  | append_singleton nights night ih =>
    have hmem : night ∈ nights.flatMap (List.replicate (count + 1)) ↔ night ∈ nights := by simp
    rw [List.flatMap_append, List.flatMap_singleton, eraseDups_append_replicate, eraseDups_concat,
      eraseDups_concat, ih]
    simp only [hmem]

theorem eraseDups_of_nodup {nights : List String} (h : nights.Nodup) : nights.eraseDups = nights := by
  induction nights using List.reverseRecOn with
  | nil => rfl
  | append_singleton nights night ih =>
    obtain ⟨hnights, -, hapart⟩ := List.nodup_append.1 h
    have hnew : night ∉ nights := fun hmem => hapart night hmem night (by simp) rfl
    rw [eraseDups_concat, if_neg hnew, ih hnights]

end NightSummary

namespace Generation

variable {perNight days : Nat} {today : Date} {dates : List Date} {words : RandomWords}
  {place : Place} {report : GenerationReport}

/-! ## The nights of a run -/

/-- The nights of the planned names are those of the dates, in the order of the dates. -/
theorem keys_plannedReport (hperNight : 0 < perNight) (dates : List Date) (words : RandomWords) :
    (plannedReport perNight dates words).summary.keys =
      (dates.map fun date => String.ofList date.text).eraseDups := by
  obtain ⟨count, rfl⟩ : ∃ count, perNight = count + 1 := ⟨perNight - 1, by omega⟩
  have hnights : (planned (count + 1) dates words).map ExposureName.night =
      (dates.map fun date => String.ofList date.text).flatMap (List.replicate (count + 1)) := by
    calc (planned (count + 1) dates words).map ExposureName.night
        = ((planned (count + 1) dates words).map ExposureName.date).map
            fun date => String.ofList date.text := by
          rw [List.map_map]
          rfl
      _ = (dates.map fun date => String.ofList date.text).flatMap
            (List.replicate (count + 1)) := by
          rw [map_date_planned, nightly]
          simp [List.map_flatMap, List.flatMap_map]
  show (NightSummary.empty.recordAll _).keys = _
  rw [NightSummary.keys_recordAll, hnights, NightSummary.eraseDups_flatMap_replicate]

/-- A run over the last days lists each of them once. -/
theorem keys_lastDays (hperNight : 0 < perNight)
    (hok : (run place (Date.lastDays today days) perNight words).result = .ok report) :
    report.summary.keys =
      (Date.lastDays today days).map fun date => String.ofList date.text := by
  have hinjective : Function.Injective fun date : Date => String.ofList date.text := by
    intro date other h
    exact Date.text_injective (String.ofList_inj.1 h)
  have hnodup := (Date.nodup_lastDays today days).map hinjective
  rw [report_of_ok hok, keys_plannedReport hperNight, NightSummary.eraseDups_of_nodup hnodup]

/-! ## The main result -/

/-- **The nights of a summary come newest first.**  The texts of dates whose years have four digits
are, byte by byte, in the order of the dates.  So if the last days up to a date have such years, a
run over them that ends well has one entry in its summary for each of them, and the texts of the
nights descend. -/
theorem nights_newest_first :
    (∀ date later : Date, 0 ≤ date.year ∧ date.year ≤ 9999 → 0 ≤ later.year ∧ later.year ≤ 9999 →
      (utf8 (String.ofList date.text) < utf8 (String.ofList later.text) ↔ date < later)) ∧
    ∀ (today : Date) (days perNight : Nat) (words : RandomWords) (place : Place)
      (report : GenerationReport),
      (∀ date ∈ Date.lastDays today days, 0 ≤ date.year ∧ date.year ≤ 9999) → 0 < perNight →
      (run place (Date.lastDays today days) perNight words).result = .ok report →
      report.summary.keys =
        (Date.lastDays today days).map (fun date => String.ofList date.text) ∧
      report.summary.size = (Date.lastDays today days).length ∧
      report.summary.keys.Pairwise fun night earlier => utf8 earlier < utf8 night := by
  refine ⟨fun date later hdate hlater => Date.utf8_text_lt_iff hdate hlater, ?_⟩
  intro today days perNight words place report hyears hperNight hok
  have hkeys := keys_lastDays hperNight hok
  refine ⟨hkeys, ?_, ?_⟩
  · have hlength := congrArg List.length hkeys
    rwa [NightSummary.keys, List.length_map, List.length_map] at hlength
  · rw [hkeys, List.pairwise_map]
    apply (Date.pairwise_lastDays today days).imp_of_mem
    intro date earlier hdate hearlier hlt
    exact (Date.utf8_text_lt_iff (hyears earlier hearlier) (hyears date hdate)).2 hlt

/-- The last days of a year come behind the first day of the next. -/
theorem nights_newest_first_new_year :
    (∀ date ∈ Date.lastDays newYear 3, 0 ≤ date.year ∧ date.year ≤ 9999) ∧ 0 < 2 ∧
    ∃ report,
      (run (.directory .empty) (Date.lastDays newYear 3) 2 steppingWords).result = .ok report ∧
      report.summary.keys = ["20230101", "20221231", "20221230"] ∧
      report.summary.keys.Pairwise fun night earlier => utf8 earlier < utf8 night := by
  have hyears : ∀ date ∈ Date.lastDays newYear 3, 0 ≤ date.year ∧ date.year ≤ 9999 := by decide
  refine ⟨hyears, by decide, _, rfl, by decide +kernel, ?_⟩
  obtain ⟨-, hnights⟩ := nights_newest_first
  obtain ⟨-, -, hdescend⟩ :=
    hnights newYear 3 2 steppingWords (.directory .empty) _ hyears (by decide) rfl
  exact hdescend

end Generation

end ExposureKit
