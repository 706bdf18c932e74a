import ExposureKit.Proofs.Night.PlannedNames
import ExposureKit.Proofs.Storage.FileCreation

/-!
# Runs of a generation

A night is one step of a generation: its names are drawn, its files are created, and if they
all could be, the report grows by them and the next night follows.  A run is taken apart night
by night, by induction on the dates.

What a run does in a directory is decided by the first of the planned files that is not free.
Without one, all files are created (`run_of_free`); where there is one, those in front of it
are (`run_of_blocked`), and the words of its night have been drawn.  Elsewhere the first night
ends the run before anything has changed (`run_of_refuses`).

The main results are `run_failure_exact` and `run_success_exact`.
-/

namespace ExposureKit.Generation

variable {perNight : Nat} {date : Date} {dates : List Date} {words : RandomWords}
  {report : GenerationReport} {place next : Place} {fault : FileFault}
  {directory : Directory}

/-! ## One night -/

/-- A night whose files could all be created is added to the report. -/
theorem continueWith_of_created
    (h : place.createAll ((drawNames date perNight words).1.map ExposureName.fileName) =
      (next, none)) :
    continueWith perNight place words report (date :: dates) =
      continueWith perNight next (drawNames date perNight words).2
        ⟨report.created ++ (drawNames date perNight words).1.map ExposureName.fileName,
          report.summary.recordAll (drawNames date perNight words).1⟩ dates := by
  rw [continueWith]
  simp only [h]

/-- A night with a file that could not be created is the last. -/
theorem continueWith_of_fault
    (h : place.createAll ((drawNames date perNight words).1.map ExposureName.fileName) =
      (next, some fault)) :
    continueWith perNight place words report (date :: dates) =
      ⟨next, (drawNames date perNight words).2, .error fault⟩ := by
  rw [continueWith]
  simp only [h]

/-! ## Runs in a directory -/

/-- If all names are free, all files are created and reported. -/
theorem continueWith_of_free
    (hfree : ∀ file ∈ plannedFiles perNight dates words, directory.isFree file = true) :
    ∃ after, directory.GainsFiles (plannedFiles perNight dates words) after ∧
      continueWith perNight (.directory directory) words report dates =
        ⟨.directory after, wordsAfter perNight dates words,
          .ok ⟨report.created ++ plannedFiles perNight dates words,
            report.summary.recordAll (planned perNight dates words)⟩⟩ := by
  induction dates generalizing directory words report with
  | nil =>
    refine ⟨directory, .refl directory, ?_⟩
    show _ = Generation.mk _ words (.ok ⟨report.created ++ [], report.summary⟩)
    rw [continueWith, List.append_nil]
  | cons date dates ih =>
    rw [plannedFiles_cons] at hfree ⊢
    obtain ⟨hnight, hlater⟩ := List.forall_mem_append.1 hfree
    obtain ⟨between, hgains, hcreated⟩ := Place.createAll_of_isFree hnight
    rw [← hgains.isFree_eq hnight] at hlater
    obtain ⟨after, hmore, hrest⟩ := ih hlater
    refine ⟨after, hgains.trans hmore, ?_⟩
    rw [continueWith_of_created hcreated, hrest, wordsAfter_cons, planned_cons, List.append_assoc]
    simp only [NightSummary.recordAll, List.foldl_append]

/-- Two nights' names, cut at one of them: it is a later one, or one of the first night. -/
theorem exists_of_append_eq_append_cons {night later made rest : List String} {blocked : String}
    (h : night ++ later = made ++ blocked :: rest) :
    (∃ madeLater, made = night ++ madeLater ∧ later = madeLater ++ blocked :: rest) ∨
      ∃ restOfNight, night = made ++ blocked :: restOfNight := by
  rcases List.append_eq_append_iff.1 h with ⟨madeLater, hmade, hlater⟩ | ⟨behind, hnight, hrest⟩
  · exact .inl ⟨madeLater, hmade, hlater⟩
  · cases behind with
    | nil =>
      rw [List.append_nil] at hnight
      exact .inl ⟨[], by rw [List.append_nil, hnight], hrest.symm⟩
    | cons first behind =>
      rw [(List.cons.inj hrest).1]
      exact .inr ⟨behind, hnight⟩

/-- If a name is not free and those in front of it are, their files are created, and the run ends
in the night of that name. -/
theorem continueWith_of_blocked {made rest : List String} {blocked : String}
    (hfiles : plannedFiles perNight dates words = made ++ blocked :: rest)
    (hfree : ∀ file ∈ made, directory.isFree file = true)
    (hblocked : directory.isFree blocked = false) :
    ∃ after, directory.GainsFiles made after ∧
      continueWith perNight (.directory directory) words report dates =
        ⟨.directory after, wordsAfter perNight (dates.take (made.length / perNight + 1)) words,
          .error .isDirectory⟩ := by
  induction dates generalizing directory words report made with
  | nil => exact absurd hfiles.symm (List.append_ne_nil_of_right_ne_nil _ (List.cons_ne_nil _ _))
  | cons date dates ih =>
    rw [plannedFiles_cons] at hfiles
    have hlength : ((drawNames date perNight words).1.map ExposureName.fileName).length =
        perNight := by
      rw [List.length_map, length_drawNames]
    rcases exists_of_append_eq_append_cons hfiles with
      ⟨madeLater, rfl, hlater⟩ | ⟨restOfNight, hnight⟩
    · -- the first night is made, and the rest of the run is blocked by the same name
      obtain ⟨hfirst, hmadeLater⟩ := List.forall_mem_append.1 hfree
      obtain ⟨between, hgains, hcreated⟩ := Place.createAll_of_isFree hfirst
      rw [← hgains.isFree_eq hfirst] at hmadeLater hblocked
      obtain ⟨after, hmore, hrest⟩ := ih hlater hmadeLater hblocked
      refine ⟨after, hgains.trans hmore, ?_⟩
      have hpos : 0 < perNight := by
        have hcount := congrArg List.length hlater
        rw [length_plannedFiles, List.length_append, List.length_cons] at hcount
        exact Nat.pos_of_mul_pos_left (by omega : 0 < dates.length * perNight)
      rw [continueWith_of_created hcreated, hrest, List.length_append, hlength,
        Nat.add_div_left _ hpos, List.take_succ_cons, wordsAfter_cons]
    · -- the first night itself is cut short, and no other follows
      obtain ⟨after, hgains, hfault⟩ :=
        Place.createAll_of_not_isFree hfree hblocked restOfNight
      refine ⟨after, hgains, ?_⟩
      have hlt : made.length < perNight := by
        rw [← hlength, hnight, List.length_append, List.length_cons]
        omega
      rw [← hnight] at hfault
      rw [continueWith_of_fault hfault, Nat.div_eq_of_lt hlt, Nat.zero_add, List.take_succ_cons,
        List.take_zero, wordsAfter_cons]
      rfl

theorem run_of_free
    (hfree : ∀ file ∈ plannedFiles perNight dates words, directory.isFree file = true) :
    ∃ after, directory.GainsFiles (plannedFiles perNight dates words) after ∧
      run (.directory directory) dates perNight words =
        ⟨.directory after, wordsAfter perNight dates words,
          .ok (plannedReport perNight dates words)⟩ := by
  unfold run
  exact continueWith_of_free hfree

theorem run_of_blocked {made rest : List String} {blocked : String}
    (hfiles : plannedFiles perNight dates words = made ++ blocked :: rest)
    (hfree : ∀ file ∈ made, directory.isFree file = true)
    (hblocked : directory.isFree blocked = false) :
    ∃ after, directory.GainsFiles made after ∧
      run (.directory directory) dates perNight words =
        ⟨.directory after, wordsAfter perNight (dates.take (made.length / perNight + 1)) words,
          .error .isDirectory⟩ := by
  unfold run
  exact continueWith_of_blocked hfiles hfree hblocked

/-! ## Runs elsewhere -/

/-- Without exposures for its dates a run changes nothing. -/
theorem continueWith_zero (place : Place) (words : RandomWords) (report : GenerationReport)
    (dates : List Date) : continueWith 0 place words report dates = ⟨place, words, .ok report⟩ := by
  induction dates generalizing report with
  | nil => rw [continueWith]
  | cons date dates ih =>
    have hcreated : place.createAll ((drawNames date 0 words).1.map ExposureName.fileName) =
        (place, none) := rfl
    rw [continueWith_of_created hcreated]
    show continueWith 0 place words ⟨report.created ++ [], report.summary⟩ dates = _
    rw [ih, List.append_nil]

/-- Where there are no exposures to make, none are reported, and the place does not matter. -/
theorem run_of_length_eq_zero (hzero : dates.length * perNight = 0) (place : Place)
    (words : RandomWords) : run place dates perNight words = ⟨place, words, .ok nothing⟩ := by
  unfold run
  rcases Nat.mul_eq_zero.1 hzero with hdates | rfl
  · rw [List.eq_nil_of_length_eq_zero hdates, continueWith]
  · exact continueWith_zero place words nothing dates

/-- A place that refuses files ends the run in its first night. -/
theorem run_of_refuses (hrefuses : place.Refuses fault) (hpos : 0 < dates.length * perNight)
    (words : RandomWords) :
    run place dates perNight words =
      ⟨place, wordsAfter perNight (dates.take 1) words, .error fault⟩ := by
  cases dates with
  | nil => simp at hpos
  | cons date dates =>
    have hne : (drawNames date perNight words).1.map ExposureName.fileName ≠ [] := by
      intro hnil
      have hlength := congrArg List.length hnil
      rw [List.length_map, length_drawNames, List.length_nil] at hlength
      rw [hlength, Nat.mul_zero] at hpos
      exact absurd hpos (Nat.lt_irrefl 0)
    unfold run
    rw [continueWith_of_fault (Place.createAll_of_refuses hrefuses hne), List.take_succ_cons,
      List.take_zero, wordsAfter_cons]
    rfl

/-! ## Failure -/

/-- A run in a directory fails exactly when a directory has taken one of the names. -/
theorem run_directory_eq_error_iff :
    (run (.directory directory) dates perNight words).result = .error fault ↔
      fault = .isDirectory ∧
        ∃ file ∈ plannedFiles perNight dates words, directory.get? file = some .directory := by
  by_cases hblocked :
      ∃ file ∈ plannedFiles perNight dates words, directory.get? file = some .directory
  · obtain ⟨made, blocked, rest, hfiles, hmade, hnot⟩ := Directory.exists_first_blocked hblocked
    obtain ⟨after, -, hrun⟩ := run_of_blocked hfiles hmade hnot
    rw [hrun]
    constructor
    · intro h
      exact ⟨(Except.error.inj h).symm, hblocked⟩
    · rintro ⟨rfl, -⟩
      rfl
  · have hfree : ∀ file ∈ plannedFiles perNight dates words, directory.isFree file = true := by
      intro file hfile
      rw [Directory.isFree_eq_true_iff]
      intro hget
      exact hblocked ⟨file, hfile, hget⟩
    obtain ⟨after, -, hrun⟩ := run_of_free hfree
    rw [hrun]
    constructor
    · intro h
      cases h
    · rintro ⟨-, h⟩
      exact absurd h hblocked

/-- If a directory has taken the name at a position and none in front of it, the files in front of
that position are created, and the words of its night and those before it have been drawn. -/
theorem run_of_first_blocked {i : Nat} {blocked : String}
    (hblocked : (plannedFiles perNight dates words)[i]? = some blocked)
    (hget : directory.get? blocked = some .directory)
    (hfirst : ∀ file ∈ (plannedFiles perNight dates words).take i,
      directory.get? file ≠ some .directory) :
    ∃ after, directory.GainsFiles ((plannedFiles perNight dates words).take i) after ∧
      run (.directory directory) dates perNight words =
        ⟨.directory after, wordsAfter perNight (dates.take (i / perNight + 1)) words,
          .error .isDirectory⟩ := by
  obtain ⟨hi, rfl⟩ := List.getElem?_eq_some_iff.1 hblocked
  have hsplit : plannedFiles perNight dates words =
      (plannedFiles perNight dates words).take i ++ (plannedFiles perNight dates words)[i] ::
        (plannedFiles perNight dates words).drop (i + 1) := by
    rw [← List.drop_eq_getElem_cons hi, List.take_append_drop]
  have hfree : ∀ file ∈ (plannedFiles perNight dates words).take i,
      directory.isFree file = true := by
    intro file hfile
    exact Directory.isFree_eq_true_iff.2 (hfirst file hfile)
  have hlength : ((plannedFiles perNight dates words).take i).length = i :=
    List.length_take_of_le (Nat.le_of_lt hi)
  obtain ⟨after, hgains, hrun⟩ :=
    run_of_blocked hsplit hfree (Directory.isFree_eq_false_iff.2 hget)
  rw [hlength] at hrun
  exact ⟨after, hgains, hrun⟩

/-- **A run that fails leaves the files in front of the one that failed, and no others.**
In a directory it fails exactly when a directory has taken the name of a planned file.  The files
planned in front of the first such have been created then, everything else stands as before, and
the words of all nights up to that of the file have been drawn.  In a place that has no directory
it fails exactly when there are files to make, and the words of the first night have been drawn. -/
theorem run_failure_exact (perNight : Nat) (dates : List Date) (words : RandomWords) :
    (plannedFiles perNight dates words).length = dates.length * perNight ∧
    (∀ directory fault,
      (run (.directory directory) dates perNight words).result = .error fault ↔
        fault = .isDirectory ∧
          ∃ file ∈ plannedFiles perNight dates words, directory.get? file = some .directory) ∧
    (∀ (directory : Directory) i blocked,
      (plannedFiles perNight dates words)[i]? = some blocked →
      directory.get? blocked = some .directory →
      (∀ file ∈ (plannedFiles perNight dates words).take i,
        directory.get? file ≠ some .directory) →
      ∃ after, directory.GainsFiles ((plannedFiles perNight dates words).take i) after ∧
        run (.directory directory) dates perNight words =
          ⟨.directory after, wordsAfter perNight (dates.take (i / perNight + 1)) words,
            .error .isDirectory⟩) ∧
    ∀ place fault, (place = .missing ∧ fault = .notFound ∨ place = .file ∧ fault = .notDirectory) →
      (dates.length * perNight = 0 →
        run place dates perNight words = ⟨place, words, .ok nothing⟩) ∧
      (0 < dates.length * perNight →
        run place dates perNight words =
          ⟨place, wordsAfter perNight (dates.take 1) words, .error fault⟩) := by
  refine ⟨length_plannedFiles perNight dates words, ?_, ?_, ?_⟩
  · intro directory fault
    exact run_directory_eq_error_iff
  · intro directory i blocked hblocked hget hfirst
    exact run_of_first_blocked hblocked hget hfirst
  · intro place fault hplace
    have hrefuses : place.Refuses fault := by
      rcases hplace with ⟨rfl, rfl⟩ | ⟨rfl, rfl⟩
      · exact Place.missing_refuses
      · exact Place.file_refuses
    constructor
    · intro hzero
      exact run_of_length_eq_zero hzero place words
    · intro hpos
      exact run_of_refuses hrefuses hpos words

/-- Words with the same step from each to the next. -/
def steppingWords : RandomWords := .ofSequence fun i => 2500000000 * UInt32.ofNat i

/-- The first day of a year. -/
def newYear : Date := ⟨2023, 1, 1, by decide⟩

/-- The first two nights of the year and the last one before it, the latest first. -/
def nightsOfNewYear : List Date := [⟨2023, 1, 2, by decide⟩, newYear, ⟨2022, 12, 31, by decide⟩]

/-- The two names that these words give the first of these nights. -/
def firstNightNames : List String := ["c_e_20230102_0_58_1_0.fits", "c_e_20230102_1_75_1_0.fits"]

/-- The last of the two names that they give the second of these nights. -/
def secondNightName : String := "c_e_20230101_4_7_1_0.fits"

/-- A directory in which a directory has taken this name. -/
def secondNightTaken : Directory := ⟨[(secondNightName, .directory)]⟩

/-- Of three nights with two files each, the last name of the second is taken: its night has been
drawn, and the third has not. -/
theorem run_failure_exact_second_night :
    (plannedFiles 2 nightsOfNewYear steppingWords)[3]? = some secondNightName ∧
    secondNightTaken.get? secondNightName = some .directory ∧
    ∃ after, secondNightTaken.GainsFiles (firstNightNames ++ ["c_e_20230101_3_91_1_0.fits"]) after ∧
      run (.directory secondNightTaken) nightsOfNewYear 2 steppingWords =
        ⟨.directory after, wordsAfter 2 (nightsOfNewYear.take 2) steppingWords,
          .error .isDirectory⟩ := by
  refine ⟨by decide +kernel, by decide +kernel, ?_⟩
  obtain ⟨-, -, hblocked, -⟩ := run_failure_exact 2 nightsOfNewYear steppingWords
  exact hblocked secondNightTaken 3 secondNightName (by decide +kernel) (by decide +kernel)
    (by decide +kernel)

/-! ## Success -/

/-- A run that ends well found all names free. -/
theorem isFree_of_ok (h : (run (.directory directory) dates perNight words).result = .ok report) :
    ∀ file ∈ plannedFiles perNight dates words, directory.isFree file = true := by
  intro file hfile
  rw [Directory.isFree_eq_true_iff]
  intro hget
  have herror := run_directory_eq_error_iff.2 ⟨rfl, file, hfile, hget⟩
  rw [h] at herror
  cases herror

/-- A run that ends well where no file can be created had none to make. -/
theorem length_eq_zero_of_ok (hrefuses : place.Refuses fault)
    (h : (run place dates perNight words).result = .ok report) : dates.length * perNight = 0 := by
  by_contra hne
  rw [run_of_refuses hrefuses (Nat.pos_of_ne_zero hne)] at h
  cases h

/-- A run that ends well reports and draws what was planned, wherever it runs. -/
theorem exists_run_eq_of_ok (h : (run place dates perNight words).result = .ok report) :
    ∃ after, run place dates perNight words =
      ⟨after, wordsAfter perNight dates words, .ok (plannedReport perNight dates words)⟩ := by
  have hnothing (hzero : dates.length * perNight = 0) :
      ∃ after, run place dates perNight words =
        ⟨after, wordsAfter perNight dates words, .ok (plannedReport perNight dates words)⟩ := by
    rw [run_of_length_eq_zero hzero, plannedReport_of_length_eq_zero perNight dates words hzero,
      wordsAfter_of_length_eq_zero perNight dates words hzero]
    exact ⟨place, rfl⟩
  cases place with
  | directory directory =>
    obtain ⟨after, -, hrun⟩ := run_of_free (isFree_of_ok h)
    exact ⟨.directory after, hrun⟩
  | missing => exact hnothing (length_eq_zero_of_ok Place.missing_refuses h)
  | file => exact hnothing (length_eq_zero_of_ok Place.file_refuses h)

theorem report_of_ok (h : (run place dates perNight words).result = .ok report) :
    report = plannedReport perNight dates words := by
  obtain ⟨after, hrun⟩ := exists_run_eq_of_ok h
  rw [hrun] at h
  exact (Except.ok.inj h).symm

theorem words_of_ok (h : (run place dates perNight words).result = .ok report) :
    (run place dates perNight words).words = wordsAfter perNight dates words := by
  obtain ⟨after, hrun⟩ := exists_run_eq_of_ok h
  rw [hrun]

/-- **A run that ends well makes the planned files and changes nothing else.**  What it reports
and what it draws is the same wherever it ends well, whatever the place held before. -/
theorem run_success_exact
    (h : (run (.directory directory) dates perNight words).result = .ok report) :
    report.created.length = dates.length * perNight ∧
    report.created = (planned perNight dates words).map ExposureName.fileName ∧
    (∃ after, (run (.directory directory) dates perNight words).place = .directory after ∧
      directory.GainsFiles report.created after) ∧
    ∀ other report', (run other dates perNight words).result = .ok report' →
      report' = report ∧
        (run other dates perNight words).words =
          (run (.directory directory) dates perNight words).words := by
  have hreport := report_of_ok h
  obtain ⟨after, hgains, hrun⟩ := run_of_free (isFree_of_ok h)
  refine ⟨?_, ?_, ⟨after, ?_, ?_⟩, ?_⟩
  · rw [hreport]
    exact length_plannedFiles perNight dates words
  · rw [hreport]
    rfl
  · rw [hrun]
  · rw [hreport]
    exact hgains
  · intro other report' hother
    rw [report_of_ok hother, words_of_ok hother, words_of_ok h]
    exact ⟨hreport.symm, rfl⟩

/-- A directory with notes, and with a file under the first name of the first night. -/
def firstNightStarted : Directory :=
  ⟨[("notes", .file [1]), ("c_e_20230102_0_58_1_0.fits", .file [2, 3])]⟩

/-- The first of two names is that of a file already, which is emptied. -/
theorem run_success_exact_file_emptied :
    (run (.directory firstNightStarted) (nightsOfNewYear.take 1) 2 steppingWords).result =
      .ok ⟨firstNightNames, ⟨[("20230102", ⟨1, 75⟩)]⟩⟩ ∧
    ∃ after,
      (run (.directory firstNightStarted) (nightsOfNewYear.take 1) 2 steppingWords).place =
          .directory after ∧
        after.get? "notes" = some (.file [1]) ∧
        after.get? "c_e_20230102_0_58_1_0.fits" = some (.file []) ∧
        after.get? "c_e_20230102_1_75_1_0.fits" = some (.file []) := by
  have hok : (run (.directory firstNightStarted) (nightsOfNewYear.take 1) 2 steppingWords).result =
      .ok ⟨firstNightNames, ⟨[("20230102", ⟨1, 75⟩)]⟩⟩ := rfl
  obtain ⟨-, -, ⟨after, hplace, hgains⟩, -⟩ := run_success_exact hok
  refine ⟨hok, after, hplace, ?_, ?_, ?_⟩
  · rw [hgains.get?_eq]
    decide +kernel
  · rw [hgains.get?_eq]
    decide +kernel
  · rw [hgains.get?_eq]
    decide +kernel

end ExposureKit.Generation
