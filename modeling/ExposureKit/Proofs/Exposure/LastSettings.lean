import Mathlib.Data.List.Induction
import ExposureKit.Exposure.Draft
import ExposureKit.Proofs.Exposure.NumberDraws

/-!
# The last settings count

Settings fill fields of a draft one after the other.  What a field holds in the end is told by the
settings of this field alone: it is the value of the last of them (`field_ofSettings`).  When the
draft is completed, open fields get their defaults, and the two numbers that have none are drawn,
the one of the multi-run first (`Settles`).

The main result is `complete_ofSettings`.
-/

namespace ExposureKit

/-! ## What settings set -/

namespace Setting

/-- The code of the instrument, where the setting sets it. -/
def instrument? : Setting → Option Char
  | .instrument code => some code
  | _ => none

/-- The code of the kind of exposure, where the setting sets it. -/
def exposure? : Setting → Option Char
  | .exposure code => some code
  | _ => none

/-- The date of the night, where the setting sets it. -/
def date? : Setting → Option Date
  | .date day => some day
  | _ => none

/-- The number of the multi-run, where the setting sets it. -/
def multiRun? : Setting → Option UInt32
  | .multiRun number => some number
  | _ => none

/-- The number of the run, where the setting sets it. -/
def run? : Setting → Option UInt32
  | .run number => some number
  | _ => none

/-- The number of the window, where the setting sets it. -/
def window? : Setting → Option UInt32
  | .window number => some number
  | _ => none

/-- How far the exposure has been processed, where the setting sets it. -/
def processing? : Setting → Option UInt32
  | .processing number => some number
  | _ => none

/-- The extension of the file, where the setting sets it. -/
def extension? : Setting → Option String
  | .extension text => some text
  | _ => none

/-- The setting sets one of the numbers that are drawn where they are open. -/
def isNumbering (setting : Setting) : Bool := setting.multiRun?.isSome || setting.run?.isSome

end Setting

/-- The last value that settings set, of those that `value?` finds in them. -/
def lastValue? {α : Type} (value? : Setting → Option α) (settings : List Setting) : Option α :=
  (settings.filterMap value?).getLast?

/-- Settings in which nothing is found may as well be left out. -/
theorem lastValue?_filter {α : Type} {value? : Setting → Option α} {kept : Setting → Bool}
    (hkept : ∀ setting, kept setting = false → value? setting = none) (settings : List Setting) :
    lastValue? value? (settings.filter kept) = lastValue? value? settings := by
  unfold lastValue?
  rw [List.filterMap_filter]
  congr 2
  funext setting
  split
  · rfl
  · next h => rw [hkept setting (Bool.eq_false_iff.2 h)]

namespace RandomWords

/-- The words give a number: one that is set stays as it is and takes no word, and an open one is
drawn below `range`. -/
inductive Settles (range : Nat) (words : RandomWords) :
    (number? : Option UInt32) → (number : UInt32) → (rest : RandomWords) → Prop
  /-- The number is set. -/
  | set (number : UInt32) : Settles range words (some number) number words
  /-- The number is drawn from the next word or the next two. -/
  | drawn {number : UInt32} {taken : Nat} (h : words.Draws range number.toNat taken) :
      Settles range words none number (words.skip taken)

variable {range : Nat} {words rest : RandomWords} {number : UInt32}

/-- A number that is set takes no word. -/
theorem Settles.rest_eq {number? : Option UInt32} (h : words.Settles range number? number rest)
    (hset : number?.isSome) : rest = words := by
  cases h with
  | set => rfl
  | drawn => cases hset

/-- A number that is drawn is below the range. -/
theorem Settles.lt (h : words.Settles range none number rest) (hrange : 0 < range) :
    number.toNat < range := by
  cases h with
  | drawn h => exact h.lt hrange

end RandomWords

namespace Draft

/-! ## Fields of a draft -/

/-- A field holds the value of the last setting of it, if a setting leaves the field as it is or
puts its own value there. -/
theorem field_ofSettings {α : Type} (field : Draft → Option α) {value? : Setting → Option α}
    (hopen : field {} = none)
    (hset : ∀ draft setting, field (draft.set setting) = (value? setting).or (field draft))
    (settings : List Setting) : field (ofSettings settings) = lastValue? value? settings := by
  induction settings using List.reverseRecOn with
  | nil => exact hopen
  | append_singleton settings setting ih =>
    unfold ofSettings lastValue? at ih ⊢
    rw [List.foldl_append, List.foldl_cons, List.foldl_nil, hset, ih, List.filterMap_append,
      List.getLast?_append]
    congr 1
    cases h : value? setting with
    | none => rw [List.filterMap_cons_none h]; rfl
    | some value => rw [List.filterMap_cons_some h]; rfl

/-- Each field of a draft holds the value of the last setting of it. -/
theorem ofSettings_eq (settings : List Setting) :
    ofSettings settings =
      { instrument := lastValue? Setting.instrument? settings
        exposure := lastValue? Setting.exposure? settings
        date := lastValue? Setting.date? settings
        multiRun := lastValue? Setting.multiRun? settings
        run := lastValue? Setting.run? settings
        window := lastValue? Setting.window? settings
        processing := lastValue? Setting.processing? settings
        extension := lastValue? Setting.extension? settings } := by
  rw [← field_ofSettings Draft.instrument rfl (fun _ setting => by cases setting <;> rfl),
    ← field_ofSettings Draft.exposure rfl (fun _ setting => by cases setting <;> rfl),
    ← field_ofSettings Draft.date rfl (fun _ setting => by cases setting <;> rfl),
    ← field_ofSettings Draft.multiRun rfl (fun _ setting => by cases setting <;> rfl),
    ← field_ofSettings Draft.run rfl (fun _ setting => by cases setting <;> rfl),
    ← field_ofSettings Draft.window rfl (fun _ setting => by cases setting <;> rfl),
    ← field_ofSettings Draft.processing rfl (fun _ setting => by cases setting <;> rfl),
    ← field_ofSettings Draft.extension rfl (fun _ setting => by cases setting <;> rfl)]

/-! ## Numbers -/

theorem numberOrDraw_settles (number? : Option UInt32) {range : Nat} (hlow : 0 < range)
    (hhigh : range ≤ 2 ^ 32) (words : RandomWords) :
    words.Settles range number? (numberOrDraw number? range words).1
      (numberOrDraw number? range words).2 := by
  cases number? with
  | some number => exact .set number
  | none =>
    obtain ⟨taken, hdraws, hrest⟩ := words.below_draws range
    show words.Settles range none (UInt32.ofNat (words.below range).1) (words.below range).2
    rw [hrest]
    refine .drawn ?_
    rwa [UInt32.toNat_ofNat_of_lt' (Nat.lt_of_lt_of_le (hdraws.lt hlow) hhigh)]

/-- The number of the multi-run is settled first, and that of the run from the words after it. -/
theorem complete_settles (draft : Draft) (today : Date) (words : RandomWords) :
    ∃ between, words.Settles 10 draft.multiRun (draft.complete today words).1.multiRun between ∧
      between.Settles 101 draft.run (draft.complete today words).1.run
        (draft.complete today words).2 :=
  ⟨_, numberOrDraw_settles draft.multiRun (by decide) (by decide) words,
    numberOrDraw_settles draft.run (by decide) (by decide) _⟩

/-- The numbers of a name, and the words left, are told by these two fields of the draft. -/
theorem complete_congr {draft other : Draft} (hmultiRun : other.multiRun = draft.multiRun)
    (hrun : other.run = draft.run) (today day : Date) (words : RandomWords) :
    (other.complete day words).1.multiRun = (draft.complete today words).1.multiRun ∧
      (other.complete day words).1.run = (draft.complete today words).1.run ∧
      (other.complete day words).2 = (draft.complete today words).2 := by
  unfold complete
  rw [hmultiRun, hrun]
  exact ⟨rfl, rfl, rfl⟩

/-- Settings of other fields leave the two numbers as they are. -/
theorem ofSettings_filter (settings : List Setting) :
    (ofSettings (settings.filter Setting.isNumbering)).multiRun = (ofSettings settings).multiRun ∧
      (ofSettings (settings.filter Setting.isNumbering)).run = (ofSettings settings).run := by
  rw [ofSettings_eq, ofSettings_eq settings]
  constructor
  · refine lastValue?_filter (fun setting hkept => ?_) settings
    simpa using (Bool.or_eq_false_iff.1 hkept).1
  · refine lastValue?_filter (fun setting hkept => ?_) settings
    simpa using (Bool.or_eq_false_iff.1 hkept).2

/-- **The last setting of a field counts, and what is open has its default.**  Two numbers have no
default: those of the multi-run and of the run, which are drawn in this order where they are open,
below 10 and below 101, from one word or two each.  If both are set nothing is drawn, and settings
of other fields make no difference to the two numbers and the words that are left. -/
theorem complete_ofSettings (settings : List Setting) (today : Date) (words : RandomWords) :
    ∃ name between rest, (ofSettings settings).complete today words = (name, rest) ∧
      name.instrument = (lastValue? Setting.instrument? settings).getD 'c' ∧
      name.exposure = (lastValue? Setting.exposure? settings).getD 'e' ∧
      name.date = (lastValue? Setting.date? settings).getD today ∧
      name.window = (lastValue? Setting.window? settings).getD 1 ∧
      name.processing = (lastValue? Setting.processing? settings).getD 0 ∧
      name.extension = (lastValue? Setting.extension? settings).getD "fits" ∧
      words.Settles 10 (lastValue? Setting.multiRun? settings) name.multiRun between ∧
      between.Settles 101 (lastValue? Setting.run? settings) name.run rest ∧
      (lastValue? Setting.multiRun? settings = none → name.multiRun.toNat ≤ 9) ∧
      (lastValue? Setting.run? settings = none → name.run.toNat ≤ 100) ∧
      ((lastValue? Setting.multiRun? settings).isSome → (lastValue? Setting.run? settings).isSome →
        rest = words) ∧
      ∀ day, ∃ other,
        (ofSettings (settings.filter Setting.isNumbering)).complete day words = (other, rest) ∧
          other.multiRun = name.multiRun ∧ other.run = name.run := by
  have heq := ofSettings_eq settings
  have hmultiRunEq : (ofSettings settings).multiRun = lastValue? Setting.multiRun? settings :=
    congrArg multiRun heq
  have hrunEq : (ofSettings settings).run = lastValue? Setting.run? settings := congrArg run heq
  obtain ⟨between, hmultiRun, hrun⟩ := complete_settles (ofSettings settings) today words
  rw [hmultiRunEq] at hmultiRun
  rw [hrunEq] at hrun
  refine ⟨((ofSettings settings).complete today words).1, between,
    ((ofSettings settings).complete today words).2, rfl,
    congrArg (·.instrument.getD 'c') heq, congrArg (·.exposure.getD 'e') heq,
    congrArg (·.date.getD today) heq, congrArg (·.window.getD 1) heq,
    congrArg (·.processing.getD 0) heq, congrArg (·.extension.getD "fits") heq,
    hmultiRun, hrun, fun hnone => ?_, fun hnone => ?_, fun hfirst hsecond => ?_, fun day => ?_⟩
  · rw [hnone] at hmultiRun
    exact Nat.le_of_lt_succ (hmultiRun.lt (by decide))
  · rw [hnone] at hrun
    exact Nat.le_of_lt_succ (hrun.lt (by decide))
  · rw [hrun.rest_eq hsecond, hmultiRun.rest_eq hfirst]
  · obtain ⟨hotherMultiRun, hotherRun⟩ := ofSettings_filter settings
    obtain ⟨hsame, hsameRun, hrest⟩ :=
      complete_congr hotherMultiRun hotherRun today day words
    exact ⟨_, Prod.ext rfl hrest, hsame, hsameRun⟩

/-- A run set twice, and a window between. -/
def twoRuns : List Setting := [.run 5, .window 3, .run 7]

/-- A day that not every year has. -/
def leapDay : Date := ⟨2024, 2, 29, by decide⟩

/-- A word near the end of its range, and the largest word ever after. -/
def carryingWords : RandomWords :=
  .ofSequence fun place => if place = 0 then 0x33333333 else 0xFFFFFFFF

/-- The first word is so near the end of its range that a second one is drawn, and carries. -/
theorem complete_ofSettings_two_words :
    ∃ name rest, (ofSettings twoRuns).complete leapDay carryingWords = (name, rest) ∧
      lastValue? Setting.multiRun? twoRuns = none ∧
      name.multiRun = 2 ∧ name.multiRun.toNat ≤ 9 ∧ rest.drawn = 2 ∧
      lastValue? Setting.run? twoRuns = some 7 ∧ name.window = 3 := by
  obtain ⟨name, between, rest, hcomplete, -, -, -, hwindow, -, -, -, -, hbound, -⟩ :=
    complete_ofSettings twoRuns leapDay carryingWords
  have hdrawn : ((ofSettings twoRuns).complete leapDay carryingWords).1.multiRun = 2 ∧
      ((ofSettings twoRuns).complete leapDay carryingWords).2.drawn = 2 := by
    decide
  rw [hcomplete] at hdrawn
  exact ⟨name, rest, hcomplete, rfl, hdrawn.1, hbound rfl, hdrawn.2, rfl, hwindow⟩

end Draft

end ExposureKit
