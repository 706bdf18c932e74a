import Mathlib.Logic.Basic
import ExposureKit.Proofs.Text.ChunkShape

/-!
# Where chunks meet

The scanner starts anew behind every chunk, passes over the first character of a word, and
tries a hyphen before a dash.  None of that shows in the chunks: whether two of them meet at a
place depends only on the characters around it.

* `Joint`: the rule for a place in a text, told by what stands before it and what stands after.
* `wordLength_joint`, `chunkLength_joint`: the first place behind the start of a chunk that
  obeys the rule is where the chunk ends, if the start itself obeys it.
* `meetAt_chunksAfter_iff`: the same for all chunks, by the recursion of the scanner.

The main result is `cutAtJoints_chunks`.
-/

namespace ExposureKit

variable {before after behind ahead : List Char} {i j length place : Nat}

/-! ## The rule for a place -/

/-- The text begins with two letters, which may have a hyphen between them. -/
def StartsWithLetters (text : List Char) : Prop :=
  ∃ a b rest, (text = a :: b :: rest ∨ text = a :: '-' :: b :: rest) ∧
    isLetter a = true ∧ isLetter b = true

/-- The text ends with two letters, which may have a hyphen between them. -/
def EndsWithLetters (text : List Char) : Prop :=
  ∃ rest a b, (text = rest ++ [a, b] ∨ text = rest ++ [a, '-', b]) ∧
    isLetter a = true ∧ isLetter b = true

/-- The place is behind a hyphen with letters on both sides. -/
def AfterHyphen (before after : List Char) : Prop :=
  ∃ front, before = front ++ ['-'] ∧ EndsWithLetters front ∧ StartsWithLetters after

/-- The place is in a dash, with `i` of its hyphens before it and `j` after.  A dash is a whole
run of two hyphens or more between the end of a word and a word. -/
def InDash (i j : Nat) (before after : List Char) : Prop :=
  2 ≤ i + j ∧ ∃ front c d back, before = front ++ c :: List.replicate i '-' ∧
    after = List.replicate j '-' ++ d :: back ∧ isWordEnd c = true ∧ isWordChar d = true

/-- The places where two chunks meet. -/
inductive Joint (before after : List Char) : Prop
  /-- Exactly one of the characters next to the place is a space. -/
  | space (h : Xor (before.getLast? = some ' ') (after.head? = some ' '))
  /-- A hyphen between letters ends here. -/
  | hyphen (h : AfterHyphen before after)
  /-- A dash begins here. -/
  | dashStart {length : Nat} (h : InDash 0 length before after)
  /-- A dash ends here. -/
  | dashEnd {length : Nat} (h : InDash length 0 before after)

/-! ## Letters and hyphens -/

theorem isLetter_space : isLetter ' ' = false := by decide

theorem isLetter_hyphen : isLetter '-' = false := by decide

theorem isWordChar_hyphen : isWordChar '-' = false := by decide

theorem isWordEnd_space : isWordEnd ' ' = false := by decide

theorem isWordEnd_hyphen : isWordEnd '-' = false := by decide

theorem lettersNext_iff {text : List Char} :
    lettersNext text = true ↔ StartsWithLetters text := by
  constructor
  · intro h
    match text, h with
    | a :: b :: rest, h =>
      rw [lettersNext, Bool.and_eq_true, Bool.or_eq_true, Bool.and_eq_true, beq_iff_eq] at h
      obtain ⟨ha, hb | ⟨rfl, hrest⟩⟩ := h
      · exact ⟨a, b, rest, .inl rfl, ha, hb⟩
      · obtain ⟨c, hc, hletter⟩ := (Option.any_eq_true _ _).1 hrest
        obtain ⟨rest, rfl⟩ := List.head?_eq_some_iff.1 hc
        exact ⟨a, c, rest, .inr rfl, ha, hletter⟩
  · rintro ⟨a, b, rest, rfl | rfl, ha, hb⟩ <;> simp [lettersNext, ha, hb]

theorem endsWithLetters_iff {text : List Char} :
    EndsWithLetters text ↔ StartsWithLetters text.reverse := by
  constructor
  · rintro ⟨rest, a, b, rfl | rfl, ha, hb⟩
    · exact ⟨b, a, rest.reverse, .inl (by simp), hb, ha⟩
    · exact ⟨b, a, rest.reverse, .inr (by simp), hb, ha⟩
  · rintro ⟨b, a, rest, htext | htext, hb, ha⟩
    · exact ⟨rest.reverse, a, b, .inl (List.reverse_inj.1 (by simp [htext])), ha, hb⟩
    · exact ⟨rest.reverse, a, b, .inr (List.reverse_inj.1 (by simp [htext])), ha, hb⟩

theorem EndsWithLetters.getLast? (h : EndsWithLetters before) :
    ∃ c, before.getLast? = some c ∧ isLetter c = true := by
  obtain ⟨rest, a, b, rfl | rfl, -, hb⟩ := h <;> exact ⟨b, by simp, hb⟩

theorem StartsWithLetters.head? (h : StartsWithLetters after) :
    ∃ c, after.head? = some c ∧ isLetter c = true := by
  obtain ⟨a, b, rest, rfl | rfl, ha, -⟩ := h <;> exact ⟨a, rfl, ha⟩

theorem AfterHyphen.getLast? (h : AfterHyphen before after) : before.getLast? = some '-' := by
  obtain ⟨front, rfl, -, -⟩ := h
  simp

/-- The scanner looks at a hyphen from its front, the rule from its back. -/
theorem breaksHyphen_iff {c : Char} :
    (c = '-' && breaksHyphen behind ahead) = true ↔ AfterHyphen (behind.reverse ++ [c]) ahead := by
  rw [Bool.and_eq_true, decide_eq_true_eq, breaksHyphen, Bool.and_eq_true, lettersNext_iff,
    lettersNext_iff]
  constructor
  · rintro ⟨rfl, hbehind, hahead⟩
    exact ⟨behind.reverse, rfl, endsWithLetters_iff.2 (by rwa [List.reverse_reverse]), hahead⟩
  · rintro ⟨front, heq, hfront, hahead⟩
    obtain ⟨rfl, hc⟩ := List.append_inj' heq rfl
    rw [endsWithLetters_iff, List.reverse_reverse] at hfront
    exact ⟨(List.cons.inj hc).1, hfront, hahead⟩

/-! ## Dashes -/

theorem InDash.getLast?_of_start (h : InDash 0 j before after) :
    ∃ c, before.getLast? = some c ∧ isWordEnd c = true := by
  obtain ⟨-, front, c, d, back, rfl, -, hc, -⟩ := h
  exact ⟨c, by simp, hc⟩

theorem InDash.head?_of_end (h : InDash i 0 before after) :
    ∃ d, after.head? = some d ∧ isWordChar d = true := by
  obtain ⟨-, front, c, d, back, -, rfl, -, hd⟩ := h
  exact ⟨d, by simp, hd⟩

theorem InDash.getLast?_of_pos (h : InDash i j before after) (hi : 0 < i) :
    before.getLast? = some '-' := by
  obtain ⟨-, front, c, d, back, rfl, -, -, -⟩ := h
  obtain ⟨i, rfl⟩ := Nat.exists_eq_add_one.2 hi
  rw [List.replicate_succ', ← List.cons_append, ← List.append_assoc, List.getLast?_concat]

theorem InDash.head?_of_pos (h : InDash i j before after) (hj : 0 < j) :
    after.head? = some '-' := by
  obtain ⟨-, front, c, d, back, -, rfl, -, -⟩ := h
  obtain ⟨j, rfl⟩ := Nat.exists_eq_add_one.2 hj
  rfl

/-- From one place in a dash to another. -/
theorem inDash_move {k : Nat} :
    InDash i (j + k) before (List.replicate k '-' ++ after) ↔
      InDash (i + k) j (before ++ List.replicate k '-') after := by
  constructor
  · rintro ⟨htwo, front, c, d, back, rfl, hafter, hc, hd⟩
    refine ⟨by omega, front, c, d, back, ?_, ?_, hc, hd⟩
    · rw [List.append_assoc, List.cons_append, List.replicate_append_replicate]
    · rw [Nat.add_comm, ← List.replicate_append_replicate, List.append_assoc] at hafter
      exact List.append_cancel_left hafter
  · rintro ⟨htwo, front, c, d, back, hbefore, rfl, hc, hd⟩
    refine ⟨by omega, front, c, d, back, ?_, ?_, hc, hd⟩
    · rw [← List.replicate_append_replicate, ← List.cons_append, ← List.append_assoc] at hbefore
      exact List.append_cancel_right hbefore
    · rw [← List.append_assoc, List.replicate_append_replicate, Nat.add_comm]

/-- The scanner sees a dash where one begins. -/
theorem dashLength?_eq_some_iff :
    dashLength? behind ahead = some length ↔ InDash 0 length behind.reverse ahead := by
  constructor
  · intro h
    unfold dashLength? at h
    split at h
    · next rest =>
      split at h
      · next hdash =>
        rw [Bool.and_eq_true, Option.any_eq_true, Option.any_eq_true] at hdash
        obtain ⟨⟨c, hc, hend⟩, d, hd, hword⟩ := hdash
        obtain ⟨front, rfl⟩ := List.head?_eq_some_iff.1 hc
        obtain ⟨back, hback⟩ := List.head?_eq_some_iff.1 hd
        cases h
        refine ⟨by omega, front.reverse, c, d, back, by simp, ?_, hend, hword⟩
        have hrun : rest.takeWhile (· == '-') =
            List.replicate (rest.takeWhile (· == '-')).length '-' := by
          refine List.eq_replicate_iff.2 ⟨rfl, fun x hx => ?_⟩
          simpa using List.mem_takeWhile_imp hx
        rw [List.replicate_succ, List.replicate_succ, ← hrun, List.cons_append, List.cons_append,
          ← hback, List.takeWhile_append_dropWhile]
      · cases h
    · cases h
  · rintro ⟨htwo, front, c, d, back, hbefore, rfl, hc, hd⟩
    rw [Nat.zero_add] at htwo
    obtain ⟨n, rfl⟩ := Nat.exists_eq_add_of_le' htwo
    have hbehind : behind = c :: front.reverse := by
      rw [← List.reverse_reverse behind, hbefore]
      simp
    have hne : ¬(d == '-') = true := by
      rw [beq_iff_eq]
      rintro rfl
      rw [isWordChar_hyphen] at hd
      cases hd
    simp [hbehind, List.replicate_succ, dashLength?, hc, hd, hne]

/-! ## Places that are no joints -/

theorem not_joint_of_spaces (hbefore : before.getLast? = some ' ')
    (hafter : after.head? = some ' ') : ¬Joint before after := by
  rintro (h | h | h | h)
  · simp [hbefore, hafter] at h
  · simp [h.getLast?] at hbefore
  · obtain ⟨c, hc, hend⟩ := h.getLast?_of_start
    obtain rfl : c = ' ' := Option.some.inj (hc.symm.trans hbefore)
    rw [isWordEnd_space] at hend
    cases hend
  · have hpos := h.1
    simp [h.getLast?_of_pos (by omega)] at hbefore

/-- Inside a dash no chunks meet. -/
theorem InDash.not_joint (h : InDash i j before after) (hi : 0 < i) (hj : 0 < j) :
    ¬Joint before after := by
  have hbefore : before.getLast? = some '-' := h.getLast?_of_pos hi
  have hafter : after.head? = some '-' := h.head?_of_pos hj
  rintro (h | ⟨-, -, -, h⟩ | h | h)
  · simp [hbefore, hafter] at h
  · obtain ⟨c, hc, hletter⟩ := h.head?
    obtain rfl : c = '-' := Option.some.inj (hc.symm.trans hafter)
    rw [isLetter_hyphen] at hletter
    cases hletter
  · obtain ⟨c, hc, hend⟩ := h.getLast?_of_start
    obtain rfl : c = '-' := Option.some.inj (hc.symm.trans hbefore)
    rw [isWordEnd_hyphen] at hend
    cases hend
  · obtain ⟨d, hd, hword⟩ := h.head?_of_end
    obtain rfl : d = '-' := Option.some.inj (hd.symm.trans hafter)
    rw [isWordChar_hyphen] at hword
    cases hword

/-! ## The end of a word -/

/-- A place inside a word, as the scanner comes to it: no chunk ends here, but a dash or a run
of spaces may begin. -/
structure InWord (before after : List Char) : Prop where
  /-- No run of spaces ends here. -/
  space : before.getLast? ≠ some ' '
  /-- No hyphen ends the word here. -/
  hyphen : ¬AfterHyphen before after
  /-- No dash is being passed or ends here. -/
  dash : ∀ {i j : Nat}, 0 < i → ¬InDash i j before after

theorem InWord.not_joint (h : InWord before after) (hafter : after.head? ≠ some ' ')
    (hdash : ∀ length, ¬InDash 0 length before after) : ¬Joint before after := by
  rintro (hjoint | hjoint | hjoint | hjoint)
  · simp [h.space, hafter] at hjoint
  · exact h.hyphen hjoint
  · exact hdash _ hjoint
  · have hpos := hjoint.1
    exact h.dash (by omega) hjoint

/-- One hyphen back in a dash. -/
theorem InDash.back {c : Char} (h : InDash (i + 1) j (before ++ [c]) after) :
    c = '-' ∧ InDash i (j + 1) before (c :: after) := by
  obtain rfl : c = '-' := by simpa using h.getLast?_of_pos (Nat.succ_pos i)
  exact ⟨rfl, inDash_move (k := 1) |>.2 h⟩

/-- Passing a character of a word. -/
theorem InWord.advance {c : Char} (h : InWord behind.reverse (c :: ahead)) (hc : c ≠ ' ')
    (hhyphen : ¬(c = '-' && breaksHyphen behind ahead) = true)
    (hdash : dashLength? behind (c :: ahead) = none) : InWord (c :: behind).reverse ahead := by
  rw [List.reverse_cons]
  refine ⟨by simpa using hc, fun hafter => hhyphen (breaksHyphen_iff.2 hafter), ?_⟩
  intro i j hi hin
  obtain ⟨i, rfl⟩ := Nat.exists_eq_add_one.2 hi
  obtain ⟨rfl, hback⟩ := hin.back
  rcases Nat.eq_zero_or_pos i with rfl | hi
  · rw [dashLength?_eq_some_iff.2 hback] at hdash
    cases hdash
  · exact h.dash hi hback

/-- A hyphen that begins a word has a space before it, or nothing. -/
theorem eq_space_of_start (hstart : behind = [] ∨ Joint behind.reverse ('-' :: ahead))
    (hdash : dashLength? behind ('-' :: ahead) = none) {c : Char}
    (hc : behind.reverse.getLast? = some c) : c = ' ' := by
  rcases hstart with rfl | h | ⟨-, -, -, h⟩ | h | h
  · cases hc
  · rcases h with ⟨hspace, -⟩ | ⟨hspace, -⟩
    · exact Option.some.inj (hc.symm.trans hspace)
    · cases hspace
  · obtain ⟨d, hd, hletter⟩ := h.head?
    obtain rfl : d = '-' := (Option.some.inj hd).symm
    rw [isLetter_hyphen] at hletter
    cases hletter
  · rw [dashLength?_eq_some_iff.2 h] at hdash
    cases hdash
  · obtain ⟨d, hd, hword⟩ := h.head?_of_end
    obtain rfl : d = '-' := (Option.some.inj hd).symm
    rw [isWordChar_hyphen] at hword
    cases hword

/-- Passing the first character of a word, which the scanner does not look at. -/
theorem InWord.of_start {c : Char} (hstart : behind = [] ∨ Joint behind.reverse (c :: ahead))
    (hc : c ≠ ' ') (hdash : dashLength? behind (c :: ahead) = none) :
    InWord (c :: behind).reverse ahead := by
  rw [List.reverse_cons]
  refine ⟨by simpa using hc, ?_, ?_⟩
  · rintro ⟨front, heq, hletters, -⟩
    obtain ⟨rfl, hhyphen⟩ := List.append_inj' heq rfl
    obtain rfl : c = '-' := (List.cons.inj hhyphen).1
    obtain ⟨d, hd, hletter⟩ := hletters.getLast?
    rw [eq_space_of_start hstart hdash hd, isLetter_space] at hletter
    cases hletter
  · intro i j hi hin
    obtain ⟨i, rfl⟩ := Nat.exists_eq_add_one.2 hi
    obtain ⟨rfl, hback⟩ := hin.back
    rcases Nat.eq_zero_or_pos i with rfl | hi
    · rw [dashLength?_eq_some_iff.2 hback] at hdash
      cases hdash
    · exact absurd (eq_space_of_start hstart hdash (hback.getLast?_of_pos hi)) (by decide)

/-- Behind a hyphen between letters there is no second one. -/
theorem AfterHyphen.not_dashStart {c : Char} (h : AfterHyphen (before ++ [c]) after) :
    ¬InDash 0 length before (c :: after) := by
  intro hdash
  obtain rfl : c = '-' := by simpa using h.getLast?
  have htwo : 2 ≤ 0 + length := hdash.1
  rw [Nat.zero_add] at htwo
  obtain ⟨n, rfl⟩ := Nat.exists_eq_add_of_le' htwo
  have hnext : InDash 1 (n + 1) (before ++ ['-']) after := inDash_move (k := 1) |>.1 hdash
  exact hnext.not_joint Nat.one_pos (Nat.succ_pos n) (.hyphen h)

/-- The first joint behind a place in a word is where the word ends. -/
theorem wordLength_joint (h : InWord behind.reverse ahead)
    (hle : place + length ≤ wordLength length behind ahead) (hlt : place < ahead.length) :
    Joint (behind.reverse ++ ahead.take place) (ahead.drop place) ↔
      place + length = wordLength length behind ahead := by
  induction ahead generalizing behind length place with
  | nil => exact absurd hlt (Nat.not_lt_zero _)
  | cons c ahead ih =>
    rw [wordLength] at hle ⊢
    by_cases hc : c = ' '
    · rw [if_pos hc] at hle ⊢
      obtain rfl : place = 0 := by omega
      refine iff_of_true (.space (.inr ?_)) (Nat.zero_add _)
      simpa [hc] using h.space
    rw [if_neg hc] at hle ⊢
    by_cases hhyphen : (c = '-' && breaksHyphen behind ahead) = true
    · rw [if_pos hhyphen] at hle ⊢
      have hafter : AfterHyphen (behind.reverse ++ [c]) ahead := breaksHyphen_iff.1 hhyphen
      obtain rfl | rfl : place = 0 ∨ place = 1 := by omega
      · refine iff_of_false ?_ (by omega)
        simpa using h.not_joint (by simpa using hc) fun _ => hafter.not_dashStart
      · exact iff_of_true (.hyphen hafter) (Nat.add_comm _ _)
    rw [if_neg hhyphen] at hle ⊢
    by_cases hdash : (dashLength? behind (c :: ahead)).isSome = true
    · rw [if_pos hdash] at hle ⊢
      obtain rfl : place = 0 := by omega
      obtain ⟨n, hn⟩ := Option.isSome_iff_exists.1 hdash
      refine iff_of_true ?_ (Nat.zero_add _)
      simpa using Joint.dashStart (dashLength?_eq_some_iff.1 hn)
    rw [if_neg hdash] at hle ⊢
    rw [Option.not_isSome_iff_eq_none] at hdash
    cases place with
    | zero =>
      refine iff_of_false ?_ (by have := le_wordLength (length + 1) (c :: behind) ahead; omega)
      refine fun hjoint => h.not_joint (by simpa using hc) ?_ (by simpa using hjoint)
      intro n hn
      rw [dashLength?_eq_some_iff.2 hn] at hdash
      cases hdash
    | succ place =>
      rw [Nat.add_right_comm, Nat.add_assoc] at hle ⊢
      simpa using ih (h.advance hc hhyphen hdash) hle (by simpa using hlt)

/-! ## The end of a chunk -/

/-- A place in a run. -/
theorem take_replicate_append (place m : Nat) (c : Char) (back : List Char) :
    (List.replicate (place + m) c ++ back).take place = List.replicate place c ∧
      (List.replicate (place + m) c ++ back).drop place = List.replicate m c ++ back := by
  rw [← List.replicate_append_replicate, List.append_assoc]
  exact ⟨List.take_left' List.length_replicate, List.drop_left' List.length_replicate⟩

/-- A place behind the start of a run of spaces. -/
theorem joint_of_spaces_iff {n : Nat} {back : List Char} (hback : back.head? ≠ some ' ')
    (hpos : 0 < place) (hle : place ≤ n) :
    Joint (before ++ (List.replicate n ' ' ++ back).take place)
      ((List.replicate n ' ' ++ back).drop place) ↔ place = n := by
  obtain ⟨m, rfl⟩ := Nat.exists_eq_add_of_le hle
  obtain ⟨htake, hdrop⟩ := take_replicate_append place m ' ' back
  obtain ⟨k, rfl⟩ := Nat.exists_eq_add_one.2 hpos
  rw [htake, hdrop]
  have hlast : (before ++ List.replicate (k + 1) ' ').getLast? = some ' ' := by
    rw [List.replicate_succ', ← List.append_assoc, List.getLast?_concat]
  cases m with
  | zero => exact iff_of_true (.space (.inl ⟨hlast, hback⟩)) rfl
  | succ m => exact iff_of_false (not_joint_of_spaces hlast rfl) (by omega)

/-- A place behind the start of a dash. -/
theorem InDash.joint_iff {n : Nat} (h : InDash 0 n before ahead) (hpos : 0 < place)
    (hle : place ≤ n) : Joint (before ++ ahead.take place) (ahead.drop place) ↔ place = n := by
  obtain ⟨m, rfl⟩ := Nat.exists_eq_add_of_le hle
  obtain ⟨back, rfl⟩ : ∃ back, ahead = List.replicate (place + m) '-' ++ back := by
    obtain ⟨-, -, -, d, back, -, hahead, -, -⟩ := h
    exact ⟨d :: back, hahead⟩
  obtain ⟨htake, hdrop⟩ := take_replicate_append place m '-' back
  rw [htake, hdrop]
  rw [← List.replicate_append_replicate, List.append_assoc, Nat.add_comm place m, inDash_move,
    Nat.zero_add] at h
  rcases Nat.eq_zero_or_pos m with rfl | hm
  · exact iff_of_true (.dashEnd h) rfl
  · exact iff_of_false (h.not_joint hpos hm) (by omega)

/-- A chunk that begins with a space is a run of spaces, and no further one follows. -/
theorem exists_spaces_append (behind ahead : List Char) :
    ∃ back, ' ' :: ahead = List.replicate (chunkLength behind (' ' :: ahead)) ' ' ++ back ∧
      back.head? ≠ some ' ' := by
  refine ⟨(' ' :: ahead).dropWhile (· == ' '), ?_, ?_⟩
  · have hrun : (' ' :: ahead).takeWhile (· == ' ') =
        List.replicate (chunkLength behind (' ' :: ahead)) ' ' := by
      rw [chunkLength, if_pos rfl]
      refine List.eq_replicate_iff.2 ⟨rfl, fun x hx => ?_⟩
      simpa using List.mem_takeWhile_imp hx
    rw [← hrun, List.takeWhile_append_dropWhile]
  · intro hhead
    have hstop := List.head?_dropWhile_not (· == ' ') (' ' :: ahead)
    rw [hhead] at hstop
    simp at hstop

/-- The first joint behind the start of a chunk is where the chunk ends. -/
theorem chunkLength_joint (hstart : behind = [] ∨ Joint behind.reverse ahead) (hpos : 0 < place)
    (hle : place ≤ chunkLength behind ahead) (hlt : place < ahead.length) :
    Joint (behind.reverse ++ ahead.take place) (ahead.drop place) ↔
      place = chunkLength behind ahead := by
  cases ahead with
  | nil => exact absurd hlt (Nat.not_lt_zero _)
  | cons c ahead =>
    by_cases hc : c = ' '
    · subst hc
      obtain ⟨back, hahead, hback⟩ := exists_spaces_append behind ahead
      generalize chunkLength behind (' ' :: ahead) = n at *
      rw [hahead]
      exact joint_of_spaces_iff hback hpos hle
    rw [chunkLength, if_neg hc] at hle ⊢
    cases hdash : dashLength? behind (c :: ahead) with
    | some n =>
      rw [hdash] at hle
      exact (dashLength?_eq_some_iff.1 hdash).joint_iff hpos hle
    | none =>
      rw [hdash] at hle
      obtain ⟨place, rfl⟩ := Nat.exists_eq_add_one.2 hpos
      simpa using wordLength_joint (InWord.of_start hstart hc hdash) hle (by simpa using hlt)

/-! ## All chunks -/

/-- Two pieces meet at this place, counted in characters from the front. -/
def MeetAt (pieces : List (List Char)) (place : Nat) : Prop :=
  ∃ front back, pieces = front ++ back ∧ front.flatten.length = place

theorem not_meetAt_of_lt {piece : List Char} {pieces : List (List Char)} (hpos : 0 < place)
    (hlt : place < piece.length) : ¬MeetAt (piece :: pieces) place := by
  rintro ⟨front, back, hpieces, rfl⟩
  rcases List.cons_eq_append_iff.1 hpieces with ⟨rfl, -⟩ | ⟨front, rfl, -⟩
  · exact absurd hpos (Nat.not_lt_zero _)
  · rw [List.flatten_cons, List.length_append] at hlt
    omega

theorem meetAt_cons_iff {piece : List Char} {pieces : List (List Char)} (hpiece : piece ≠ []) :
    MeetAt (piece :: pieces) (piece.length + place) ↔ MeetAt pieces place := by
  constructor
  · rintro ⟨front, back, hpieces, hlength⟩
    rcases List.cons_eq_append_iff.1 hpieces with ⟨rfl, -⟩ | ⟨front, rfl, rfl⟩
    · have := List.length_pos_iff.2 hpiece
      rw [List.flatten_nil, List.length_nil] at hlength
      omega
    · rw [List.flatten_cons, List.length_append] at hlength
      exact ⟨front, back, rfl, by omega⟩
  · rintro ⟨front, back, rfl, rfl⟩
    exact ⟨piece :: front, back, rfl, by rw [List.flatten_cons, List.length_append]⟩

theorem meetAt_append_iff {front pieces : List (List Char)} (hfront : ∀ piece ∈ front, piece ≠ []) :
    MeetAt (front ++ pieces) (front.flatten.length + place) ↔ MeetAt pieces place := by
  induction front with
  | nil => rw [List.flatten_nil, List.length_nil, Nat.zero_add, List.nil_append]
  | cons piece front ih =>
    rw [List.cons_append, List.flatten_cons, List.length_append, Nat.add_assoc,
      meetAt_cons_iff (hfront piece List.mem_cons_self),
      ih fun p hp => hfront p (List.mem_cons_of_mem _ hp)]

/-- Between two places where pieces meet, and no others between them, stands one piece. -/
theorem exists_piece_between {pieces : List (List Char)} {start : Nat}
    (hpieces : ∀ piece ∈ pieces, piece ≠ []) (hstart : MeetAt pieces start)
    (hmeet : ∀ place, 0 < place → place ≤ length →
      (MeetAt pieces (start + place) ↔ place = length)) (hlength : 0 < length) :
    ∃ front piece back, pieces = front ++ piece :: back ∧ front.flatten.length = start ∧
      piece.length = length := by
  obtain ⟨front, rest, rfl, rfl⟩ := hstart
  have hfront : ∀ piece ∈ front, piece ≠ [] := fun p hp => hpieces p (List.mem_append_left _ hp)
  simp only [meetAt_append_iff hfront] at hmeet
  have hend : MeetAt rest length := (hmeet length hlength (Nat.le_refl _)).2 rfl
  cases rest with
  | nil =>
    obtain ⟨upto, back, hupto, rfl⟩ := hend
    rw [(List.append_eq_nil_iff.1 hupto.symm).1] at hlength
    exact absurd hlength (Nat.not_lt_zero _)
  | cons piece back =>
    refine ⟨front, piece, back, rfl, rfl, ?_⟩
    have hpiece : piece ≠ [] := hpieces piece (by simp)
    by_contra hne
    rcases Nat.lt_or_gt_of_ne hne with hlt | hgt
    · have hfirst : MeetAt (piece :: back) piece.length := ⟨[piece], back, rfl, by simp⟩
      exact hne ((hmeet _ (List.length_pos_iff.2 hpiece) (Nat.le_of_lt hlt)).1 hfirst)
    · exact not_meetAt_of_lt hlength hgt hend

/-- Chunks meet at joints and nowhere else, if the scanner begins at one. -/
theorem meetAt_chunksAfter_iff (behind ahead : List Char)
    (hstart : behind = [] ∨ Joint behind.reverse ahead) :
    ∀ place, 0 < place → place < ahead.length → (MeetAt (chunksAfter behind ahead) place ↔
      Joint (behind.reverse ++ ahead.take place) (ahead.drop place)) := by
  fun_induction chunksAfter behind ahead with
  | case1 => exact fun place _ hlt => absurd hlt (Nat.not_lt_zero _)
  | case2 behind ahead hahead chunk ih =>
    intro place hpos hlt
    have hend := chunkLength_pos behind hahead
    have hlength : chunk.length = min (chunkLength behind ahead) ahead.length := List.length_take
    rcases Nat.lt_or_ge place (chunkLength behind ahead) with hinside | hle
    · rw [chunkLength_joint hstart hpos (Nat.le_of_lt hinside) hlt]
      exact iff_of_false (not_meetAt_of_lt hpos (by omega)) (by omega)
    · have hjoint := (chunkLength_joint hstart hend (Nat.le_refl _) (by omega)).2 rfl
      have hne : chunk ≠ [] := List.length_pos_iff.1 (by omega)
      obtain ⟨k, rfl⟩ := Nat.exists_eq_add_of_le hle
      rw [List.reverse_append, List.reverse_reverse] at ih
      rw [show chunkLength behind ahead + k = chunk.length + k by omega, meetAt_cons_iff hne,
        show chunk.length + k = chunkLength behind ahead + k by omega, List.take_add,
        ← List.append_assoc, ← List.drop_drop]
      rcases Nat.eq_zero_or_pos k with rfl | hk
      · refine iff_of_true ⟨[], _, rfl, rfl⟩ ?_
        rwa [List.take_zero, List.append_nil, List.drop_zero]
      · exact ih (.inr hjoint) k hk (by rw [List.length_drop]; omega)

/-- Chunks meet at joints and nowhere else. -/
theorem meetAt_chunks_iff (text : List Char) {place : Nat} (hpos : 0 < place)
    (hlt : place < text.length) :
    MeetAt (chunks text) place ↔ Joint (text.take place) (text.drop place) := by
  rw [chunks_eq]
  exact meetAt_chunksAfter_iff [] text (.inl rfl) place hpos hlt

theorem joint_of_chunks_eq {text : List Char} {front back : List (List Char)}
    (h : chunks text = front ++ back) (hfront : front.flatten ≠ []) (hback : back.flatten ≠ []) :
    Joint front.flatten back.flatten := by
  have htext : text = front.flatten ++ back.flatten := by
    rw [← flatten_chunks text, h, List.flatten_append]
  have hjoint := (meetAt_chunks_iff text (List.length_pos_iff.2 hfront) ?_).1 ⟨front, back, h, rfl⟩
  · rwa [htext, List.take_left, List.drop_left] at hjoint
  · rw [htext, List.length_append]
    have := List.length_pos_iff.2 hback
    omega

/-- A run of spaces is not cut. -/
theorem head?_ne_space_of_chunks_eq {text : List Char} {front back : List (List Char)}
    (h : chunks text = front ++ back) (hlast : front.flatten.getLast? = some ' ') :
    back.flatten.head? ≠ some ' ' := by
  intro hhead
  refine not_joint_of_spaces hlast hhead (joint_of_chunks_eq h ?_ ?_)
  · intro hnil
    rw [hnil] at hlast
    cases hlast
  · intro hnil
    rw [hnil] at hhead
    cases hhead

/-- A dash is a chunk. -/
theorem exists_dash_chunk (h : InDash 0 length before after) :
    ∃ front back, chunks (before ++ after) = front ++ List.replicate length '-' :: back ∧
      front.flatten = before := by
  have htwo : 2 ≤ 0 + length := h.1
  obtain ⟨c, hc, -⟩ := h.getLast?_of_start
  have hbefore : before ≠ [] := by
    rintro rfl
    cases hc
  obtain ⟨-, -, -, d, rest, -, hafter, -, -⟩ := id h
  have hlength : length < after.length := by simp [hafter]
  have hplace : ∀ place ≤ length, (MeetAt (chunks (before ++ after)) (before.length + place) ↔
      Joint (before ++ after.take place) (after.drop place)) := by
    intro place hle
    rw [meetAt_chunks_iff _ (by have := List.length_pos_iff.2 hbefore; omega)
      (by rw [List.length_append]; omega), List.take_length_add_append, List.drop_length_add_append]
  have hstart : MeetAt (chunks (before ++ after)) (before.length + 0) := by
    rw [hplace 0 (Nat.zero_le _), List.take_zero, List.append_nil, List.drop_zero]
    exact .dashStart h
  obtain ⟨front, piece, back, hchunks, hfront, hpiece⟩ :=
    exists_piece_between (Wrap.alternating_chunks _).ne_nil hstart
      (fun place hpos hle => (hplace place hle).trans (h.joint_iff hpos hle)) (by omega)
  have htext : before ++ after = front.flatten ++ (piece ++ back.flatten) := by
    rw [← flatten_chunks (before ++ after), hchunks, List.flatten_append, List.flatten_cons]
  obtain ⟨rfl, hrest⟩ := List.append_inj htext hfront.symm
  rw [hafter] at hrest
  obtain ⟨rfl, -⟩ := List.append_inj hrest (by rw [List.length_replicate, hpiece])
  exact ⟨front, back, hchunks, rfl⟩

/-- The pieces of a text, cut at its joints and nowhere else. -/
structure CutAtJoints (text : List Char) (pieces : List (List Char)) : Prop where
  /-- The pieces are the text. -/
  flatten_eq : pieces.flatten = text
  /-- No piece is empty. -/
  ne_nil : ∀ piece ∈ pieces, piece ≠ []
  /-- Pieces meet where the characters around the place say so. -/
  meetAt_iff : ∀ place, 0 < place → place < text.length →
    (MeetAt pieces place ↔ Joint (text.take place) (text.drop place))
  /-- A piece is all spaces or has none. -/
  unmixed : ∀ piece ∈ pieces, (∀ c ∈ piece, c = ' ') ∨ ' ' ∉ piece
  /-- No space stands next to a piece of spaces. -/
  spaces_apart : ∀ front spaces back, pieces = front ++ spaces :: back → ' ' ∈ spaces →
    front.flatten.getLast? ≠ some ' ' ∧ back.flatten.head? ≠ some ' '
  /-- A dash is a piece of its own. -/
  dash : ∀ before length after, text = before ++ after → InDash 0 length before after →
    ∃ front back, pieces = front ++ List.replicate length '-' :: back ∧ front.flatten = before

/-- **Chunks meet at joints.**  The chunks of a text make it up, none is empty, and two of them
meet exactly where the characters around the place say so.  So a chunk is a whole run of spaces
or has none, and every dash is a chunk. -/
theorem cutAtJoints_chunks (text : List Char) :
    CutAtJoints (text.map blankToSpace) (chunks (text.map blankToSpace)) := by
  generalize text.map blankToSpace = text
  have halternating := Wrap.alternating_chunks text
  have hunmixed : ∀ chunk ∈ chunks text, (∀ c ∈ chunk, c = ' ') ∨ ' ' ∉ chunk := by
    intro chunk hchunk
    refine (halternating.unmixed chunk hchunk).imp_left fun hspaces c hc => ?_
    simpa using List.all_eq_true.1 hspaces c hc
  refine ⟨flatten_chunks text, halternating.ne_nil, fun _ => meetAt_chunks_iff text, hunmixed,
    ?_, ?_⟩
  · intro front spaces back hchunks hspace
    have hspaces := (hunmixed spaces (by simp [hchunks])).resolve_right (not_not_intro hspace)
    have hne : spaces ≠ [] := List.ne_nil_of_mem hspace
    obtain ⟨c, hc⟩ := Option.ne_none_iff_exists'.1 (mt List.getLast?_eq_none_iff.1 hne)
    obtain rfl := hspaces c (List.mem_of_getLast? hc)
    constructor
    · intro hlast
      refine head?_ne_space_of_chunks_eq hchunks hlast ?_
      obtain ⟨c, spaces, rfl⟩ := List.exists_cons_of_ne_nil hne
      simpa using hspaces c List.mem_cons_self
    · have hnext : chunks text = (front ++ [spaces]) ++ back := by simp [hchunks]
      refine head?_ne_space_of_chunks_eq hnext ?_
      simpa [List.getLast?_append_of_ne_nil _ hne] using hc
  · rintro before length after rfl hdash
    exact exists_dash_chunk hdash

end ExposureKit
