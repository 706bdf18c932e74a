import ExposureKit.Proofs.Calendar.DayNumbers

/-!
# The last days

Going back by counting and going back by the calendar, one day after the other, lead to the same
dates (`daysBefore?_succ`).  So the last days up to a date are the date itself and then the last
days up to the day before it (`lastDays_succ`), until the calendar begins.

The main result is `lastDays_walk`.
-/

namespace ExposureKit.Date

/-! ## The day before -/

/-- By the calendar, the one date is the day before the other. -/
inductive IsDayBefore (prev date : Date) : Prop where
  /-- It is the day before in the month. -/
  | inMonth (hyear : prev.year = date.year) (hmonth : prev.month = date.month)
      (hday : prev.day + 1 = date.day)
  /-- A month begins, and it is the last day of the month before. -/
  | monthEnd (hyear : prev.year = date.year) (hmonth : prev.month + 1 = date.month)
      (hlast : prev.day = daysInMonth prev.year prev.month) (hday : date.day = 1)
  /-- A year begins, and it is 31 December of the year before. -/
  | yearEnd (hyear : prev.year + 1 = date.year) (hlast : prev.month = 12 ∧ prev.day = 31)
      (hfirst : date.month = 1 ∧ date.day = 1)

/-- The first date of the calendar. -/
def first : Date := ⟨firstYear, 1, 1, by decide⟩

variable {date prev today : Date}

/-- The calendar has the day before of every date but its first. -/
theorem pred?_cases (date : Date) :
    date.pred? = none ∧ date = first ∨ ∃ prev, date.pred? = some prev ∧ IsDayBefore prev date := by
  obtain ⟨year, month, day, hexists⟩ := date
  have hdate := hexists
  obtain ⟨hyearLow, hyearHigh, hmonthLow, hmonthHigh, hdayLow, hdayHigh⟩ := hdate
  unfold pred? ofNumbers?
  dsimp only
  by_cases hday : 1 < day
  · have hprev : DateExists year month (day - 1) :=
      ⟨hyearLow, hyearHigh, hmonthLow, hmonthHigh, by omega, by omega⟩
    rw [if_pos hday, dif_pos hprev]
    exact .inr ⟨_, rfl, .inMonth rfl rfl (Nat.sub_add_cancel hdayLow)⟩
  · obtain rfl : day = 1 := by omega
    rw [if_neg hday]
    by_cases hmonth : 1 < month
    · have hprev : DateExists year (month - 1) (daysInMonth year (month - 1)) :=
        ⟨hyearLow, hyearHigh, by omega, by omega, daysInMonth_pos year (month - 1), Nat.le_refl _⟩
      rw [if_pos hmonth, dif_pos hprev]
      exact .inr ⟨_, rfl, .monthEnd rfl (Nat.sub_add_cancel hmonthLow) rfl rfl⟩
    · obtain rfl : month = 1 := by omega
      rw [if_neg hmonth]
      by_cases hyear : firstYear < year
      · have hprev : DateExists (year - 1) 12 31 :=
          ⟨by omega, by omega, by decide, by decide, by decide, Nat.le_refl 31⟩
        rw [dif_pos hprev]
        exact .inr ⟨_, rfl, .yearEnd (Int.sub_add_cancel year 1) ⟨rfl, rfl⟩ ⟨rfl, rfl⟩⟩
      · obtain rfl : year = firstYear := by omega
        rw [dif_neg fun hprev => absurd hprev.1 (by decide)]
        exact .inl ⟨rfl, rfl⟩

/-- Where a month begins, the day before is the last of the month before. -/
theorem dayNumber_add_one_of_monthIndex (hindex : prev.monthIndex + 1 = date.monthIndex)
    (hlast : prev.day = daysInMonth prev.year prev.month) (hday : date.day = 1) :
    prev.dayNumber + 1 = date.dayNumber := by
  rw [dayNumber_eq, dayNumber_eq, ← hindex, monthStart_succ, yearOf_monthIndex, monthOf_monthIndex,
    hday, hlast]
  omega

/-- The day before has the number before. -/
theorem IsDayBefore.dayNumber_add_one (h : IsDayBefore prev date) :
    prev.dayNumber + 1 = date.dayNumber := by
  cases h with
  | inMonth hyear hmonth hday =>
    rw [dayNumber_eq, dayNumber_eq, monthIndex, monthIndex, hyear, hmonth, ← hday]
    omega
  | monthEnd hyear hmonth hlast hday =>
    refine dayNumber_add_one_of_monthIndex ?_ hlast hday
    unfold monthIndex
    omega
  | yearEnd hyear hlast hfirst =>
    refine dayNumber_add_one_of_monthIndex ?_ ?_ hfirst.2
    · unfold monthIndex
      omega
    · rw [hlast.1, hlast.2]
      rfl

/-- No date is between a day and the day before it. -/
theorem IsDayBefore.lt_iff (h : IsDayBefore prev date) {other : Date} :
    other < date ↔ other = prev ∨ other < prev := by
  have hnumber := h.dayNumber_add_one
  rw [← dayNumber_lt_iff, ← dayNumber_lt_iff, ← dayNumber_injective.eq_iff]
  omega

theorem not_lt_first (date : Date) : ¬date < first := by
  obtain ⟨hyear, -, hmonth, -, hday, -⟩ := date.dateExists
  rw [Date.lt_iff]
  show ¬(date.year < firstYear ∨ date.year = firstYear ∧
    (date.month < 1 ∨ date.month = 1 ∧ date.day < 1))
  omega

/-! ## Going back -/

theorem daysBefore?_zero (date : Date) : date.daysBefore? 0 = some date := by
  rw [daysBefore?, ofDayNumber?_eq_some_iff]
  exact (Int.sub_zero _).symm

/-- To go back by one day more is to go back from the day before. -/
theorem daysBefore?_succ (date : Date) (days : Nat) :
    date.daysBefore? (days + 1) = date.pred?.bind fun prev => prev.daysBefore? days := by
  rcases date.pred?_cases with ⟨hnone, rfl⟩ | ⟨prev, hprev, hbefore⟩
  · rw [hnone, Option.bind_none, daysBefore?, Option.eq_none_iff_forall_ne_some]
    intro other hother
    rw [ofDayNumber?_eq_some_iff] at hother
    exact not_lt_first other (dayNumber_lt_iff.1 (by omega))
  · have hnumber := hbefore.dayNumber_add_one
    rw [hprev, Option.bind_some, daysBefore?, daysBefore?]
    congr 1
    omega

/-- The last days are the date and the last days up to the day before. -/
theorem lastDays_succ (today : Date) (days : Nat) :
    lastDays today (days + 1) = today :: today.pred?.elim [] fun prev => lastDays prev days := by
  have hback : today.daysBefore? ∘ Nat.succ =
      fun count => today.pred?.bind fun prev => prev.daysBefore? count :=
    funext fun count => daysBefore?_succ today count
  rw [lastDays, List.range_succ_eq_map, List.filterMap_cons_some (daysBefore?_zero today),
    List.filterMap_map, hback]
  cases today.pred? with
  | none => exact congrArg (today :: ·) (List.filterMap_eq_nil_iff.2 fun _ _ => rfl)
  | some prev => rfl

/-! ## How far back -/

/-- How many days later a date is than another: so many dates come before it and not before the
other. -/
noncomputable def daysFrom (start finish : Date) : Nat :=
  {date : Date | ¬date < start ∧ date < finish}.ncard

theorem finite_between (start finish : Date) :
    {date : Date | ¬date < start ∧ date < finish}.Finite := by
  refine Set.Finite.of_injOn (f := dayNumber) (t := Set.Ico start.dayNumber finish.dayNumber)
    ?_ dayNumber_injective.injOn (Set.finite_Ico _ _)
  rintro date ⟨hstart, hfinish⟩
  rw [← dayNumber_lt_iff, not_lt] at hstart
  exact ⟨hstart, dayNumber_lt_of_lt hfinish⟩

theorem daysFrom_first_first : daysFrom first first = 0 := by
  have hempty : {date : Date | ¬date < first ∧ date < first} = ∅ :=
    Set.eq_empty_of_forall_notMem fun _ h => h.1 h.2
  rw [daysFrom, hempty, Set.ncard_empty]

/-- It is one day more to a date than to the day before it. -/
theorem IsDayBefore.daysFrom_eq (h : IsDayBefore prev date) {start : Date}
    (hstart : ¬prev < start) : daysFrom start date = daysFrom start prev + 1 := by
  have hinsert : {other : Date | ¬other < start ∧ other < date} =
      insert prev {other : Date | ¬other < start ∧ other < prev} := by
    ext other
    rw [Set.mem_insert_iff, Set.mem_ofPred_eq, Set.mem_ofPred_eq, h.lt_iff]
    constructor
    · rintro ⟨hother, rfl | hlt⟩
      · exact .inl rfl
      · exact .inr ⟨hother, hlt⟩
    · rintro (rfl | ⟨hother, hlt⟩)
      · exact ⟨hstart, .inl rfl⟩
      · exact ⟨hother, .inr hlt⟩
  have hnotMem : prev ∉ {other : Date | ¬other < start ∧ other < prev} :=
    fun hprev => (dayNumber_lt_of_lt hprev.2).false
  rw [daysFrom, hinsert, Set.ncard_insert_of_notMem hnotMem (finite_between start prev), daysFrom]

/-! ## The walk back -/

theorem lastDays_zero (today : Date) : lastDays today 0 = [] := rfl

/-- The list ends where it is long enough or where the calendar begins. -/
theorem length_lastDays (today : Date) (days : Nat) :
    (lastDays today days).length = min days (1 + daysFrom first today) := by
  induction days generalizing today with
  | zero => simp [lastDays_zero]
  | succ days ih =>
    rw [lastDays_succ, List.length_cons]
    rcases today.pred?_cases with ⟨hnone, rfl⟩ | ⟨prev, hprev, hbefore⟩
    · rw [hnone, daysFrom_first_first]
      simp
    · rw [hprev, Option.elim_some, ih, hbefore.daysFrom_eq (not_lt_first prev)]
      omega

theorem head?_lastDays (today : Date) (days : Nat) :
    (lastDays today days).head? = if days = 0 then none else some today := by
  cases days with
  | zero => rfl
  | succ days => rw [lastDays_succ, List.head?_cons, if_neg (Nat.succ_ne_zero days)]

/-- Each date is followed by the day before it. -/
theorem isChain_lastDays (today : Date) (days : Nat) :
    (lastDays today days).IsChain fun date prev => IsDayBefore prev date := by
  induction days generalizing today with
  | zero => exact .nil
  | succ days ih =>
    rw [lastDays_succ]
    rcases today.pred?_cases with ⟨hnone, -⟩ | ⟨prev, hprev, hbefore⟩
    · rw [hnone]
      exact .singleton today
    · rw [hprev, Option.elim_some, List.isChain_cons]
      refine ⟨fun date hdate => ?_, ih prev⟩
      rw [head?_lastDays] at hdate
      split at hdate
      · cases hdate
      · cases hdate
        exact hbefore

/-- A list that is too short ends with the first date. -/
theorem length_eq_or_getLast?_eq (today : Date) (days : Nat) :
    (lastDays today days).length = days ∨ (lastDays today days).getLast? = some first := by
  induction days generalizing today with
  | zero => exact .inl rfl
  | succ days ih =>
    rw [lastDays_succ]
    rcases today.pred?_cases with ⟨hnone, rfl⟩ | ⟨prev, hprev, -⟩
    · rw [hnone]
      exact .inr rfl
    · rw [hprev, Option.elim_some, List.length_cons, Nat.add_right_cancel_iff]
      refine (ih prev).imp_right fun hlast => ?_
      rw [List.getLast?_cons, hlast]
      rfl

/-- The dates come in order, the latest first. -/
theorem pairwise_lastDays (today : Date) (days : Nat) :
    (lastDays today days).Pairwise fun date earlier => earlier < date := by
  have htrans : IsTrans Date fun date earlier => earlier < date :=
    ⟨fun _ _ _ h h' => dayNumber_lt_iff.1 ((dayNumber_lt_of_lt h').trans (dayNumber_lt_of_lt h))⟩
  exact ((isChain_lastDays today days).imp fun _ _ hbefore => hbefore.lt_iff.2 (.inl rfl)).pairwise

theorem nodup_lastDays (today : Date) (days : Nat) : (lastDays today days).Nodup := by
  apply (pairwise_lastDays today days).imp
  rintro date earlier hlt rfl
  exact (dayNumber_lt_of_lt hlt).false

/-- How long the months of a year are; February has a day more in leap years. -/
theorem map_daysInMonth (year : Int) :
    (List.range' 1 12).map (daysInMonth year) =
      [31, if 4 ∣ year ∧ ¬100 ∣ year ∨ 400 ∣ year then 29 else 28, 31, 30, 31, 30, 31, 31, 30, 31,
        30, 31] := by
  have hfebruary : daysInMonth year 2 =
      if 4 ∣ year ∧ ¬100 ∣ year ∨ 400 ∣ year then 29 else 28 := by
    rw [daysInMonth, if_pos rfl]
    simp only [isLeap_iff]
  rw [← hfebruary]
  rfl

/-- **The last days are the days back from a date, without gaps.**  There are as many as asked for,
or else all since the calendar begins; the first is the date itself, and each is followed by the day
before it, in its month, in its year, or at the end of the year before.  So the dates descend, none
comes twice, and where the list is too short it ends with the first date there is.  Months are as
long as in the Gregorian calendar, in all years. -/
theorem lastDays_walk (today : Date) (days : Nat) :
    (lastDays today days).length = min days (1 + daysFrom first today) ∧
    (lastDays today days).head? = (if days = 0 then none else some today) ∧
    (lastDays today days).IsChain (fun date prev => IsDayBefore prev date) ∧
    (lastDays today days).Pairwise (fun date earlier => earlier < date) ∧
    (lastDays today days).Nodup ∧
    ((lastDays today days).length = days ∨ (lastDays today days).getLast? = some first) ∧
    ∀ year, (List.range' 1 12).map (daysInMonth year) =
      [31, if 4 ∣ year ∧ ¬100 ∣ year ∨ 400 ∣ year then 29 else 28, 31, 30, 31, 30, 31, 31, 30, 31,
        30, 31] := by
  have hpairwise := pairwise_lastDays today days
  refine ⟨length_lastDays today days, head?_lastDays today days, isChain_lastDays today days,
    hpairwise, hpairwise.imp fun hlt => ?_, length_eq_or_getLast?_eq today days, map_daysInMonth⟩
  rintro rfl
  exact (dayNumber_lt_of_lt hlt).false

end ExposureKit.Date
