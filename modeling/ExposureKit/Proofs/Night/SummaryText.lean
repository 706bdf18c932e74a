import ExposureKit.Proofs.Exposure.NameText
import ExposureKit.Proofs.Night.SummaryRuns

/-!
# Texts of summaries read back

The text of a summary has three lines for a night, each of them ended by a line feed.  Neither the
text of a date nor a number holds a line feed, so that the lines are found again
(`splitLines_text`); and of each line the reader takes off what is the same in all summaries
(`afterLead?_append`), which leaves the date or the number.

The main result is `text_tells_summary`.
-/

namespace ExposureKit.NightSummary

variable {summary : NightSummary}

/-! ## Lines found again -/

/-- Lines that are ended by line feeds are found again. -/
theorem splitLines_eq_some {lines : List (List Char)} (hlines : ∀ line ∈ lines, '\n' ∉ line) :
    splitLines (lines.flatMap (· ++ ['\n'])) = some lines := by
  unfold splitLines
  dsimp only
  rw [splitOn_flatMap hlines, if_pos List.getLast?_concat, List.dropLast_concat]

/-! ## The lines on a night -/

/-- The lines on a night hold a line feed only if the text of its date does. -/
theorem lineFeed_notMem_nightLines {night : String} (hnight : '\n' ∉ night.toList)
    (maxima : RunMaxima) : ∀ line ∈ nightLines night maxima, '\n' ∉ line := by
  have hnumber (n : UInt32) : '\n' ∉ ExposureName.numberText n :=
    ExposureName.notMem_numberText (by decide) n
  simp only [nightLines, List.forall_mem_cons, List.mem_append, not_or]
  refine ⟨⟨by decide, hnight⟩, ⟨by decide, hnumber _⟩, ⟨by decide, hnumber _⟩, by simp⟩

/-- What stands behind the fixed front of a line is read. -/
theorem afterLead?_append (lead rest : List Char) : afterLead? lead (lead ++ rest) = some rest := by
  have hprefix : lead.isPrefixOf (lead ++ rest) = true := by
    rw [List.isPrefixOf_iff_prefix]
    exact List.prefix_append lead rest
  rw [afterLead?, if_pos hprefix, List.drop_left]

/-- The lines on a night are read as its entry, and then the lines behind them. -/
theorem readNights?_append (night : String) (maxima : RunMaxima) (rest : List (List Char)) :
    readNights? (nightLines night maxima ++ rest) =
      (readNights? rest).map ((night, maxima) :: ·) := by
  show readNights? (_ :: _ :: _ :: rest) = _
  rw [readNights?, afterLead?_append, afterLead?_append, afterLead?_append]
  simp only [Option.bind_eq_bind, Option.bind_some, ExposureName.readNumber?_numberText,
    String.ofList_toList]
  cases readNights? rest with
  | none => rfl
  | some nights => rfl

theorem readNights?_lines (summary : NightSummary) :
    readNights? summary.lines = some summary.nights := by
  unfold lines
  induction summary.nights with
  | nil => rfl
  | cons entry nights ih =>
    rw [List.flatMap_cons, readNights?_append, ih]
    rfl

/-- There are three lines for each night. -/
theorem length_lines (summary : NightSummary) : summary.lines.length = 3 * summary.size := by
  unfold lines size
  induction summary.nights with
  | nil => rfl
  | cons entry nights ih =>
    have hthree : (nightLines entry.1 entry.2).length = 3 := rfl
    rw [List.flatMap_cons, List.length_append, ih, hthree, List.length_cons]
    omega

/-! ## Summaries without line feeds -/

theorem splitLines_text (hnights : ∀ night ∈ summary.keys, '\n' ∉ night.toList) :
    splitLines summary.text = some summary.lines := by
  apply splitLines_eq_some
  intro line hline
  obtain ⟨⟨night, maxima⟩, hentry, hmem⟩ := List.mem_flatMap.1 hline
  have hnight : night ∈ summary.keys := List.mem_map_of_mem hentry
  exact lineFeed_notMem_nightLines (hnights night hnight) maxima line hmem

theorem read?_text (hnights : ∀ night ∈ summary.keys, '\n' ∉ night.toList) :
    read? summary.text = some summary := by
  unfold read?
  rw [splitLines_text hnights]
  simp only [Option.bind_eq_bind, Option.bind_some, readNights?_lines, Option.pure_def]

/-- No night that is recorded holds a line feed. -/
theorem lineFeed_notMem_keys (names : List ExposureName) :
    ∀ night ∈ (empty.recordAll names).keys, '\n' ∉ night.toList := by
  intro night hnight
  rw [keys_recordAll, List.mem_eraseDups, List.mem_map] at hnight
  obtain ⟨name, -, rfl⟩ := hnight
  rw [ExposureName.night, String.toList_ofList]
  exact ExposureName.notMem_dateText (by decide) (by decide) name.date

/-! ## The main result -/

/-- **The text of a summary tells the summary.**  Whatever was recorded, the text has three lines
for each date; read in groups of three they give all nights back, in the order of the first records,
with their largest identifiers.  So two summaries that have one text are the same. -/
theorem text_tells_summary (names : List ExposureName) :
    (∃ lines, splitLines (empty.recordAll names).text = some lines ∧
      lines.length = 3 * (names.map ExposureName.date).toFinset.card ∧
      readNights? lines = some (empty.recordAll names).nights) ∧
    (empty.recordAll names).keys = (names.map ExposureName.night).eraseDups ∧
    read? (empty.recordAll names).text = some (empty.recordAll names) ∧
    ∀ others, (empty.recordAll others).text = (empty.recordAll names).text →
      empty.recordAll others = empty.recordAll names := by
  have hread := read?_text (lineFeed_notMem_keys names)
  refine ⟨⟨_, splitLines_text (lineFeed_notMem_keys names), ?_, readNights?_lines _⟩,
    keys_recordAll names, hread, ?_⟩
  · rw [length_lines, size_recordAll]
  · intro others htext
    have hother := read?_text (lineFeed_notMem_keys others)
    rw [htext, hread] at hother
    exact (Option.some.inj hother).symm

end ExposureKit.NightSummary
