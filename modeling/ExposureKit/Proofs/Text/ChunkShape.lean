import Mathlib.Data.List.Chain
import Mathlib.Data.List.TakeWhile
import ExposureKit.Text.Wrap

/-!
# The shape of chunks

A scanner cuts a text into chunks, and what it carries along, the characters behind it,
decides only where words end.  `chunksAfter` is the same scanner without its accumulator,
so that the first chunk of a text and the chunks of the rest can be told apart.

The main result is `alternating_chunks`: no chunk is empty, none mixes spaces with other
characters, and a run of spaces is never cut in two.
-/

namespace ExposureKit

/-! ## Cutting, chunk by chunk -/

/-- The chunks of what is ahead, with `behind` behind it. -/
def chunksAfter (behind ahead : List Char) : List (List Char) :=
  if _h : ahead = [] then []
  else
    let chunk := ahead.take (chunkLength behind ahead)
    chunk :: chunksAfter (chunk.reverse ++ behind) (ahead.drop (chunkLength behind ahead))
termination_by ahead.length
decreasing_by
  have := chunkLength_pos behind _h
  have := List.length_pos_iff.2 _h
  rw [List.length_drop]
  omega

theorem chunksAfter_nil (behind : List Char) : chunksAfter behind [] = [] := by
  simp [chunksAfter]

theorem chunksAfter_of_ne_nil (behind : List Char) {ahead : List Char} (hahead : ahead ≠ []) :
    chunksAfter behind ahead = ahead.take (chunkLength behind ahead) ::
      chunksAfter ((ahead.take (chunkLength behind ahead)).reverse ++ behind)
        (ahead.drop (chunkLength behind ahead)) := by
  rw [chunksAfter, dif_neg hahead]

theorem chunksFrom_eq (behind : List Char) (done : List (List Char)) (ahead : List Char) :
    chunksFrom behind done ahead = done.reverse ++ chunksAfter behind ahead := by
  fun_induction chunksFrom behind done ahead with
  | case1 behind done => simp [chunksAfter_nil]
  | case2 behind done ahead hahead chunk ih =>
    rw [ih, chunksAfter_of_ne_nil behind hahead]
    simp [chunk]

theorem chunks_eq (text : List Char) : chunks text = chunksAfter [] text := by
  rw [chunks, chunksFrom_eq]
  rfl

/-! ## The first chunk -/

/-- A chunk has the character that it begins with. -/
theorem mem_take_chunkLength (behind : List Char) (c : Char) (ahead : List Char) :
    c ∈ (c :: ahead).take (chunkLength behind (c :: ahead)) := by
  obtain ⟨n, hn⟩ := Nat.exists_eq_add_one.2 (chunkLength_pos behind (List.cons_ne_nil c ahead))
  rw [hn, List.take_succ_cons]
  exact List.mem_cons_self

/-- A chunk that begins with a space is the whole run of spaces. -/
theorem take_chunkLength_of_space (behind ahead : List Char) :
    (' ' :: ahead).take (chunkLength behind (' ' :: ahead)) =
      (' ' :: ahead).takeWhile (· == ' ') := by
  rw [chunkLength, if_pos rfl]
  exact (List.prefix_iff_eq_take.1 ( List.takeWhile_prefix _)).symm

theorem drop_chunkLength_of_space (behind ahead : List Char) :
    (' ' :: ahead).drop (chunkLength behind (' ' :: ahead)) =
      (' ' :: ahead).dropWhile (· == ' ') := by
  rw [chunkLength, if_pos rfl]
  generalize hrun : (' ' :: ahead).takeWhile (· == ' ') = run
  have hsplit : run ++ (' ' :: ahead).dropWhile (· == ' ') = ' ' :: ahead := by
    rw [← hrun, List.takeWhile_append_dropWhile]
  calc (' ' :: ahead).drop run.length
      = (run ++ (' ' :: ahead).dropWhile (· == ' ')).drop run.length := by rw [hsplit]
    _ = (' ' :: ahead).dropWhile (· == ' ') := List.drop_left

/-- Spaces in front of a word are the same ones, whatever comes after it. -/
theorem takeWhile_append_of_word {line : List Char} (hword : ∃ c ∈ line, c ≠ ' ')
    (after : List Char) : (line ++ after).takeWhile (· == ' ') = line.takeWhile (· == ' ') := by
  rw [List.takeWhile_append, if_neg]
  intro hlength
  obtain ⟨c, hc, hne⟩ := hword
  have hall := (List.takeWhile_prefix (· == ' ')).eq_of_length hlength
  rw [← hall] at hc
  exact hne (by simpa using List.mem_takeWhile_imp hc)

/-- A word is passed up to the next space at most. -/
theorem space_notMem_take_wordLength (length : Nat) (behind ahead : List Char) :
    ' ' ∉ ahead.take (wordLength length behind ahead - length) := by
  induction ahead generalizing length behind with
  | nil => simp
  | cons c ahead ih =>
    have hstop : ∀ {n : Nat}, n = length → ' ' ∉ (c :: ahead).take (n - length) := by
      rintro n rfl
      simp
    rw [wordLength]
    split
    · exact hstop rfl
    · next hc =>
      split
      · simpa using Ne.symm hc
      · split
        · exact hstop rfl
        · have hle := le_wordLength (length + 1) (c :: behind) ahead
          have hrest := ih (length + 1) (c :: behind)
          rw [show wordLength (length + 1) (c :: behind) ahead - length =
            (wordLength (length + 1) (c :: behind) ahead - (length + 1)) + 1 by omega,
            List.take_succ_cons, List.mem_cons, not_or]
          exact ⟨Ne.symm hc, hrest⟩

theorem dashLength?_of_ne {behind ahead : List Char} {c : Char} (hc : c ≠ '-') :
    dashLength? behind (c :: ahead) = none := by
  unfold dashLength?
  split
  · next heq =>
    cases heq
    exact absurd rfl hc
  · rfl

/-- A dash is made of hyphens. -/
theorem take_of_dashLength? {behind ahead : List Char} {length : Nat}
    (h : dashLength? behind ahead = some length) : ∀ c ∈ ahead.take length, c = '-' := by
  unfold dashLength? at h
  split at h
  · next rest =>
    split at h
    · cases h
      intro c hc
      rw [List.take_succ_cons, List.take_succ_cons,
        ← List.prefix_iff_eq_take.1 ( List.takeWhile_prefix _)] at hc
      rcases List.mem_cons.1 hc with rfl | hc
      · rfl
      · rcases List.mem_cons.1 hc with rfl | hc
        · rfl
        · simpa using List.mem_takeWhile_imp hc
    · cases h
  · cases h

/-- A chunk that begins with another character holds no space. -/
theorem space_notMem_take_chunkLength (behind : List Char) {c : Char} (hc : c ≠ ' ')
    (ahead : List Char) : ' ' ∉ (c :: ahead).take (chunkLength behind (c :: ahead)) := by
  rw [chunkLength, if_neg hc]
  split
  · next length hdash =>
    intro hspace
    exact absurd (take_of_dashLength? hdash _ hspace) (by decide)
  · have hle := le_wordLength 1 (c :: behind) ahead
    have hword := space_notMem_take_wordLength 1 (c :: behind) ahead
    rw [show wordLength 1 (c :: behind) ahead = (wordLength 1 (c :: behind) ahead - 1) + 1 by omega,
      List.take_succ_cons, List.mem_cons, not_or]
    exact ⟨Ne.symm hc, hword⟩

namespace Wrap

/-! ## Words and runs of spaces -/

/-- The piece does not mix spaces with other characters. -/
def Unmixed (piece : List Char) : Prop := isSpaces piece = true ∨ ' ' ∉ piece

theorem isSpaces_nil : isSpaces [] = true := rfl

theorem isSpaces_eq_false {piece : List Char} {c : Char} (hc : c ∈ piece) (hne : c ≠ ' ') :
    isSpaces piece = false := by
  rw [isSpaces, List.all_eq_false]
  exact ⟨c, hc, by simpa using hne⟩

theorem space_mem_of_isSpaces {piece : List Char} (h : isSpaces piece = true)
    (hne : piece ≠ []) : ' ' ∈ piece := by
  obtain ⟨c, piece, rfl⟩ := List.exists_cons_of_ne_nil hne
  have hc : c = ' ' := by simpa using List.all_eq_true.1 h c (by simp)
  simp [hc]

theorem isSpaces_of_subset {piece part : List Char} (h : isSpaces piece = true)
    (hsub : ∀ c ∈ part, c ∈ piece) : isSpaces part = true := by
  rw [isSpaces, List.all_eq_true] at h ⊢
  exact fun c hc => h c (hsub c hc)

/-- What is cut out of a piece is as unmixed as the piece. -/
theorem Unmixed.of_subset {piece part : List Char} (h : Unmixed piece)
    (hsub : ∀ c ∈ part, c ∈ piece) : Unmixed part := by
  rcases h with h | h
  · exact .inl (isSpaces_of_subset h hsub)
  · exact .inr fun hspace => h (hsub _ hspace)

/-- An unmixed piece of which a part is spaces, and not nothing, is spaces. -/
theorem Unmixed.isSpaces_of_part {piece part : List Char} (h : Unmixed piece)
    (hsub : ∀ c ∈ part, c ∈ piece) (hpart : isSpaces part = true) (hne : part ≠ []) :
    isSpaces piece = true := by
  rcases h with h | h
  · exact h
  · exact absurd (hsub _ (space_mem_of_isSpaces hpart hne)) h

/-- Pieces as they stand in a text: none is empty, none is mixed, and no two runs of
spaces stand next to each other. -/
structure Alternating (pieces : List (List Char)) : Prop where
  /-- No piece is empty. -/
  ne_nil : ∀ piece ∈ pieces, piece ≠ []
  /-- A piece is spaces or holds none. -/
  unmixed : ∀ piece ∈ pieces, Unmixed piece
  /-- After spaces there are none. -/
  apart : pieces.IsChain fun piece next => isSpaces piece = true → isSpaces next = false

theorem alternating_nil : Alternating [] := ⟨by simp, by simp, .nil⟩

/-- Pieces that stand together among others alternate if those do. -/
theorem Alternating.part {pieces part : List (List Char)} (h : Alternating pieces)
    (hpart : part <:+: pieces) : Alternating part :=
  ⟨fun piece hpiece => h.ne_nil piece (hpart.subset hpiece),
    fun piece hpiece => h.unmixed piece (hpart.subset hpiece), h.apart.infix hpart⟩

theorem Alternating.suffix {pieces rest : List (List Char)} (h : Alternating pieces)
    (hrest : rest <:+ pieces) : Alternating rest :=
  h.part hrest.isInfix

theorem Alternating.cons {piece : List Char} {pieces : List (List Char)} (h : Alternating pieces)
    (hne : piece ≠ []) (hunmixed : Unmixed piece)
    (hapart : ∀ next ∈ pieces.head?, isSpaces piece = true → isSpaces next = false) :
    Alternating (piece :: pieces) := by
  refine ⟨?_, ?_, h.apart.cons hapart⟩
  · intro p hp
    rcases List.mem_cons.1 hp with rfl | hp
    · exact hne
    · exact h.ne_nil p hp
  · intro p hp
    rcases List.mem_cons.1 hp with rfl | hp
    · exact hunmixed
    · exact h.unmixed p hp

/-- Spaces alone are one piece at most. -/
theorem Alternating.length_le_one {pieces : List (List Char)} (h : Alternating pieces)
    (hspaces : ∀ piece ∈ pieces, isSpaces piece = true) : pieces.length ≤ 1 := by
  match pieces with
  | [] => exact Nat.zero_le 1
  | [_] => exact Nat.le_refl 1
  | piece :: next :: _ =>
    have hnext : isSpaces next = false := h.apart.rel (hspaces piece (by simp))
    rw [hspaces next (by simp)] at hnext
    cases hnext

/-- The first chunk of what does not begin with a space is a word. -/
theorem isSpaces_head_chunksAfter {behind ahead next : List Char} (hahead : ahead.head? ≠ some ' ')
    (hnext : next ∈ (chunksAfter behind ahead).head?) : isSpaces next = false := by
  cases ahead with
  | nil =>
    rw [chunksAfter_nil] at hnext
    cases hnext
  | cons c ahead =>
    rw [chunksAfter_of_ne_nil behind (by simp)] at hnext
    obtain rfl := Option.some.inj hnext
    exact isSpaces_eq_false (mem_take_chunkLength behind c ahead) (by simpa using hahead)

theorem alternating_chunksAfter (behind ahead : List Char) :
    Alternating (chunksAfter behind ahead) := by
  fun_induction chunksAfter behind ahead with
  | case1 => exact alternating_nil
  | case2 behind ahead hahead chunk ih =>
    obtain ⟨c, ahead, rfl⟩ := List.exists_cons_of_ne_nil hahead
    have hmem : c ∈ chunk := mem_take_chunkLength behind c ahead
    have hne : chunk ≠ [] := List.ne_nil_of_mem hmem
    by_cases hc : c = ' '
    · subst hc
      have hspaces : isSpaces chunk = true := by
        rw [isSpaces, List.all_eq_true]
        intro x hx
        rw [show chunk = _ from take_chunkLength_of_space behind ahead] at hx
        exact List.mem_takeWhile_imp (p := (· == ' ')) hx
      refine ih.cons hne (.inl hspaces) ?_
      intro next hnext _
      -- the run of spaces is maximal, so that another character follows
      refine isSpaces_head_chunksAfter ?_ hnext
      rw [drop_chunkLength_of_space]
      intro hhead
      have hstop := List.head?_dropWhile_not (· == ' ') (' ' :: ahead)
      rw [hhead] at hstop
      simp at hstop
    · have hword : ' ' ∉ chunk := space_notMem_take_chunkLength behind hc ahead
      refine ih.cons hne (.inr hword) ?_
      intro next _ hspaces
      exact absurd (space_mem_of_isSpaces hspaces hne) hword

/-- The chunks of a text are words and runs of spaces, and no run is cut in two. -/
theorem alternating_chunks (text : List Char) : Alternating (chunks text) := by
  rw [chunks_eq]
  exact alternating_chunksAfter [] text

end Wrap

end ExposureKit
