import Mathlib.Data.Finset.Card
import Mathlib.Data.Prod.Lex
import ExposureKit.Night.Summary
import ExposureKit.Proofs.Calendar.DateText

/-!
# Runs of records

A summary is told by its keys and by what it gives for each of them.  For both there is one
lemma on a single record, and then one on all records, by induction on the exposures from
the last one back.

The pairs of a multi-run and a run are ordered, the multi-run first, and observing an exposure
takes the maximum (`observe_eq_max`).  So what a summary gives for a night is the latest
exposure of that night, `IsLatest`, however the exposures came in.

The main result is `recordAll_spec`.
-/

namespace ExposureKit

/-! ## The order of exposures in a night -/

namespace RunMaxima

/-- The multi-run and the run as numbers, in lexicographic order. -/
def rank (maxima : RunMaxima) : ℕ ×ₗ ℕ := toLex (maxima.multiRun.toNat, maxima.run.toNat)

theorem rank_injective : Function.Injective rank := by
  intro maxima other h
  obtain ⟨hmultiRun, hrun⟩ := Prod.mk.inj (toLex_inj.1 h)
  cases maxima
  cases other
  rw [mk.injEq]
  exact ⟨UInt32.toNat_inj.1 hmultiRun, UInt32.toNat_inj.1 hrun⟩

/-- The larger multi-run comes later, and within a multi-run the larger run. -/
instance : LinearOrder RunMaxima := LinearOrder.lift' rank rank_injective

theorem le_iff {maxima other : RunMaxima} : maxima ≤ other ↔
    maxima.multiRun < other.multiRun ∨
      maxima.multiRun = other.multiRun ∧ maxima.run ≤ other.run := by
  show rank maxima ≤ rank other ↔ _
  unfold rank
  rw [Prod.Lex.toLex_le_toLex, UInt32.lt_iff_toNat_lt, UInt32.le_iff_toNat_le, UInt32.toNat_inj]

/-- Observing an exposure takes the later one. -/
theorem observe_eq_max (maxima latest : RunMaxima) :
    maxima.observe latest.multiRun latest.run = max maxima latest := by
  unfold observe
  split_ifs with hmultiRun hrun
  · rw [max_eq_right (le_iff.2 (.inl hmultiRun))]
  · obtain ⟨heq, hlt⟩ := hrun
    rw [max_eq_right (le_iff.2 (.inr ⟨heq.symm, UInt32.le_of_lt hlt⟩)), ← heq]
  · have hle : latest ≤ maxima := by
      rw [le_iff]
      simp only [UInt32.lt_iff_toNat_lt, UInt32.le_iff_toNat_le, ← UInt32.toNat_inj] at *
      omega
    rw [max_eq_left hle]

end RunMaxima

/-- The multi-run and the run of an exposure. -/
def ExposureName.maxima (name : ExposureName) : RunMaxima := ⟨name.multiRun, name.run⟩

namespace NightSummary

variable {names : List ExposureName} {name : ExposureName} {night : String} {maxima : RunMaxima}

/-- The nights of a summary, in its order. -/
def keys (summary : NightSummary) : List String := summary.nights.map Prod.fst

theorem get?_eq_none_iff (summary : NightSummary) :
    summary.get? night = none ↔ night ∉ summary.keys := by
  unfold get? keys
  rw [List.lookup_eq_none_iff]
  simp only [bne_iff_ne, List.mem_map, not_exists, not_and]
  constructor
  · intro h entry hentry heq
    exact h entry hentry heq.symm
  · intro h entry hentry heq
    exact h entry hentry heq.symm

/-! ## One record -/

/-- A record adds its night behind the others, unless it is known. -/
theorem keys_record (summary : NightSummary) (name : ExposureName) :
    (summary.record name).keys =
      if name.night ∈ summary.keys then summary.keys else summary.keys ++ [name.night] := by
  unfold record keys
  dsimp only
  induction summary.nights with
  | nil => simp [recordIn]
  | cons entry nights ih =>
    obtain ⟨known, maxima⟩ := entry
    rw [recordIn]
    by_cases hknown : known = name.night
    · simp [hknown]
    · rw [if_neg hknown, List.map_cons, List.map_cons, ih]
      by_cases hmem : name.night ∈ nights.map Prod.fst
      · rw [if_pos hmem, if_pos (List.mem_cons_of_mem _ hmem)]
      · rw [if_neg hmem, if_neg (by simpa [Ne.symm hknown] using hmem), List.cons_append]

theorem lookup_cons_of_ne {known : String} (hne : night ≠ known) (maxima : RunMaxima)
    (nights : List (String × RunMaxima)) :
    ((known, maxima) :: nights).lookup night = nights.lookup night := by
  rw [List.lookup_cons, beq_false_of_ne hne]

/-- A record takes the maximum for its night. -/
theorem get?_record_self (summary : NightSummary) (name : ExposureName) :
    (summary.record name).get? name.night =
      some ((summary.get? name.night).elim name.maxima (max · name.maxima)) := by
  unfold record get?
  dsimp only
  induction summary.nights with
  | nil =>
    rw [recordIn, List.lookup_cons_self]
    rfl
  | cons entry nights ih =>
    obtain ⟨known, maxima⟩ := entry
    rw [recordIn]
    by_cases hknown : known = name.night
    · subst hknown
      rw [if_pos rfl, List.lookup_cons_self, List.lookup_cons_self, Option.elim_some,
        ← RunMaxima.observe_eq_max]
      rfl
    · rw [if_neg hknown, lookup_cons_of_ne (Ne.symm hknown), lookup_cons_of_ne (Ne.symm hknown), ih]

/-- A record leaves all other nights as they were. -/
theorem get?_record_of_ne (summary : NightSummary) (hnight : name.night ≠ night) :
    (summary.record name).get? night = summary.get? night := by
  unfold record get?
  dsimp only
  induction summary.nights with
  | nil => rw [recordIn, lookup_cons_of_ne hnight.symm]
  | cons entry nights ih =>
    obtain ⟨known, maxima⟩ := entry
    rw [recordIn]
    by_cases hknown : known = name.night
    · have hne : night ≠ known := by
        rw [hknown]
        exact hnight.symm
      rw [if_pos hknown, lookup_cons_of_ne hne, lookup_cons_of_ne hne]
    · rw [if_neg hknown, List.lookup_cons, List.lookup_cons, ih]

/-! ## All records -/

theorem recordAll_concat (summary : NightSummary) (names : List ExposureName)
    (name : ExposureName) :
    summary.recordAll (names ++ [name]) = (summary.recordAll names).record name := by
  unfold recordAll
  rw [List.foldl_append]
  rfl

theorem eraseDups_concat (nights : List String) (night : String) :
    (nights ++ [night]).eraseDups =
      if night ∈ nights then nights.eraseDups else nights.eraseDups ++ [night] := by
  rw [List.eraseDups_append]
  by_cases hmem : night ∈ nights
  · simp [List.removeAll, hmem]
  · simp [List.removeAll, hmem, List.eraseDups_cons]

/-- The nights are listed as they were first recorded. -/
theorem keys_recordAll (names : List ExposureName) :
    (empty.recordAll names).keys = (names.map ExposureName.night).eraseDups := by
  induction names using List.reverseRecOn with
  | nil => rfl
  | append_singleton names name ih =>
    rw [recordAll_concat, keys_record, ih, List.map_append, List.map_singleton, eraseDups_concat]
    simp only [List.mem_eraseDups]

/-- No night is listed twice. -/
theorem nodup_keys_recordAll (names : List ExposureName) :
    (empty.recordAll names).keys.Nodup := by
  induction names using List.reverseRecOn with
  | nil => exact List.nodup_nil
  | append_singleton names name ih =>
    rw [recordAll_concat, keys_record]
    split_ifs with hmem
    · exact ih
    · rw [← List.concat_eq_append]
      exact ih.concat hmem

/-- Only nights that were recorded are known. -/
theorem get?_recordAll_eq_none_iff (names : List ExposureName) (night : String) :
    (empty.recordAll names).get? night = none ↔ ∀ name ∈ names, name.night ≠ night := by
  rw [get?_eq_none_iff, keys_recordAll, List.mem_eraseDups]
  simp

/-! ## The latest exposure of a night -/

/-- The multi-run and the run of the latest exposure of a night. -/
structure IsLatest (names : List ExposureName) (night : String) (maxima : RunMaxima) : Prop where
  /-- They are those of an exposure of the night. -/
  recorded : ∃ name ∈ names, name.night = night ∧ name.maxima = maxima
  /-- No exposure of the night comes later. -/
  greatest : ∀ name ∈ names, name.night = night → name.maxima ≤ maxima

theorem IsLatest.eq {other : RunMaxima} (h : IsLatest names night maxima)
    (hother : IsLatest names night other) : maxima = other := by
  obtain ⟨name, hname, hnight, rfl⟩ := h.recorded
  obtain ⟨name', hname', hnight', rfl⟩ := hother.recorded
  exact le_antisymm (hother.greatest name hname hnight) (h.greatest name' hname' hnight')

/-- The latest exposure depends only on which exposures there are. -/
theorem IsLatest.of_mem_iff {others : List ExposureName} (h : IsLatest names night maxima)
    (hmem : ∀ name, name ∈ names ↔ name ∈ others) : IsLatest others night maxima := by
  obtain ⟨name, hname, hnight⟩ := h.recorded
  refine ⟨⟨name, (hmem name).1 hname, hnight⟩, ?_⟩
  intro name hname
  exact h.greatest name ((hmem name).2 hname)

theorem IsLatest.perm {others : List ExposureName} (h : IsLatest names night maxima)
    (hperm : names.Perm others) : IsLatest others night maxima :=
  h.of_mem_iff fun _ => hperm.mem_iff

/-- The first exposure of a night is its latest. -/
theorem isLatest_of_first (hnew : ∀ other ∈ names, other.night ≠ name.night) :
    IsLatest (names ++ [name]) name.night name.maxima := by
  refine ⟨⟨name, by simp, rfl, rfl⟩, ?_⟩
  intro other hother hnight
  rcases List.mem_append.1 hother with hother | hother
  · exact absurd hnight (hnew other hother)
  · rw [List.mem_singleton.1 hother]

/-- One more exposure of a night may come later than the latest so far. -/
theorem IsLatest.concat (h : IsLatest names name.night maxima) :
    IsLatest (names ++ [name]) name.night (max maxima name.maxima) := by
  constructor
  · rcases max_choice maxima name.maxima with hmax | hmax
    · obtain ⟨other, hother, hnight, rfl⟩ := h.recorded
      exact ⟨other, by simp [hother], hnight, hmax.symm⟩
    · exact ⟨name, by simp, rfl, hmax.symm⟩
  · intro other hother hnight
    rcases List.mem_append.1 hother with hother | hother
    · exact le_max_of_le_left (h.greatest other hother hnight)
    · rw [List.mem_singleton.1 hother]
      exact le_max_right _ _

theorem IsLatest.concat_of_ne (h : IsLatest names night maxima) (hnight : name.night ≠ night) :
    IsLatest (names ++ [name]) night maxima := by
  constructor
  · obtain ⟨other, hother, hmaxima⟩ := h.recorded
    exact ⟨other, by simp [hother], hmaxima⟩
  · intro other hother hsame
    rcases List.mem_append.1 hother with hother | hother
    · exact h.greatest other hother hsame
    · rw [List.mem_singleton.1 hother] at hsame
      exact absurd hsame hnight

/-- What a summary gives for a night is the latest exposure of it. -/
theorem isLatest_of_get? {maxima : RunMaxima}
    (h : (empty.recordAll names).get? night = some maxima) : IsLatest names night maxima := by
  induction names using List.reverseRecOn generalizing maxima with
  | nil => cases h
  | append_singleton names name ih =>
    rw [recordAll_concat] at h
    by_cases hnight : name.night = night
    · subst hnight
      rw [get?_record_self] at h
      obtain rfl := Option.some.inj h
      cases hbefore : (empty.recordAll names).get? name.night with
      | none => exact isLatest_of_first ((get?_recordAll_eq_none_iff names name.night).1 hbefore)
      | some before => exact (ih hbefore).concat
    · rw [get?_record_of_ne _ hnight] at h
      exact (ih h).concat_of_ne hnight

theorem get?_recordAll_eq_some_iff (names : List ExposureName) (night : String)
    (maxima : RunMaxima) :
    (empty.recordAll names).get? night = some maxima ↔ IsLatest names night maxima := by
  constructor
  · exact isLatest_of_get?
  · intro h
    obtain ⟨name, hname, hnight, -⟩ := h.recorded
    cases hget : (empty.recordAll names).get? night with
    | none => exact absurd hnight ((get?_recordAll_eq_none_iff names night).1 hget name hname)
    | some other => rw [(isLatest_of_get? hget).eq h]

/-- The order of the records does not matter. -/
theorem get?_recordAll_perm {others : List ExposureName} (hperm : names.Perm others)
    (night : String) : (empty.recordAll names).get? night = (empty.recordAll others).get? night := by
  ext maxima
  rw [get?_recordAll_eq_some_iff, get?_recordAll_eq_some_iff]
  constructor
  · intro h
    exact h.perm hperm
  · intro h
    exact h.perm hperm.symm

/-! ## Nights and dates -/

/-- Nights are told apart as their dates are. -/
theorem night_eq_iff {name other : ExposureName} :
    name.night = other.night ↔ name.date = other.date := by
  unfold ExposureName.night
  rw [String.ofList_inj, Date.text_injective.eq_iff]

/-- There are as many nights as there are dates. -/
theorem size_recordAll (names : List ExposureName) :
    (empty.recordAll names).size = (names.map ExposureName.date).toFinset.card := by
  have hinjective : Function.Injective fun date : Date => String.ofList date.text := by
    intro date other h
    exact Date.text_injective (String.ofList_inj.1 h)
  have hkeys : (empty.recordAll names).keys.toFinset =
      (names.map ExposureName.date).toFinset.image fun date => String.ofList date.text := by
    ext night
    rw [keys_recordAll]
    simp [ExposureName.night]
  calc (empty.recordAll names).size
      = (empty.recordAll names).keys.length := by
        unfold keys
        rw [List.length_map]
        rfl
    _ = (empty.recordAll names).keys.toFinset.card :=
        (List.toFinset_card_of_nodup (nodup_keys_recordAll names)).symm
    _ = (names.map ExposureName.date).toFinset.card := by
        rw [hkeys, Finset.card_image_of_injective _ hinjective]

/-- **A summary is right, whatever was recorded.**  It lists each night once, in the order of
the first records, one for each date; it knows nothing of a night that was not recorded, and of
any other it gives the latest exposure, in whatever order the records came. -/
theorem recordAll_spec (names : List ExposureName) :
    (empty.recordAll names).keys = (names.map ExposureName.night).eraseDups ∧
    (empty.recordAll names).keys.Nodup ∧
    (empty.recordAll names).size = (names.map ExposureName.date).toFinset.card ∧
    (∀ night, (empty.recordAll names).get? night = none ↔ ∀ name ∈ names, name.night ≠ night) ∧
    (∀ night maxima, (empty.recordAll names).get? night = some maxima ↔
      IsLatest names night maxima) ∧
    (∀ others, names.Perm others →
      ∀ night, (empty.recordAll names).get? night = (empty.recordAll others).get? night) ∧
    ∀ name other : ExposureName, name.night = other.night ↔ name.date = other.date :=
  ⟨keys_recordAll names, nodup_keys_recordAll names, size_recordAll names,
    get?_recordAll_eq_none_iff names, get?_recordAll_eq_some_iff names,
    fun _ hperm => get?_recordAll_perm hperm, fun _ _ => night_eq_iff⟩

end NightSummary

end ExposureKit
