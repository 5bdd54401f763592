import ForkTape.Proofs.Bracket.Level
import Mathlib.Data.List.Basic

/-!
# Leaving instructions out

Instructions that bound no loop can be left out of a sequence, and its loops stay what they are.
Every prefix keeps its level, so the brackets that are left are balanced when they were before
(`balanced_filter_iff`), and a loop encloses what is left of what it enclosed
(`Encloses.filter`). The instruction at an index is then found at its `place`.
-/

namespace ForkTape.Bracket

/-- Where the instruction at `index` stands when only some instructions are kept: behind those
before it that are. -/
def place (keep : Instruction → Bool) (sequence : List Instruction) (index : Nat) : Nat :=
  (sequence.take index).countP keep

section Place

variable {keep : Instruction → Bool} {sequence : List Instruction} {instruction : Instruction}
  {index : Nat}

/-- What is kept of a prefix is a prefix of what is kept. -/
theorem take_place (keep : Instruction → Bool) (sequence : List Instruction) (index : Nat) :
    (sequence.filter keep).take (place keep sequence index) =
      (sequence.take index).filter keep := by
  have parts : sequence.filter keep =
      (sequence.take index).filter keep ++ (sequence.drop index).filter keep := by
    rw [← List.filter_append, List.take_append_drop]
  rw [parts, place, List.countP_eq_length_filter, List.take_left]

theorem place_succ (found : sequence[index]? = some instruction) :
    place keep sequence (index + 1) =
      place keep sequence index + if keep instruction then 1 else 0 := by
  rw [place, List.take_add_one, found, List.countP_append, place]
  simp [List.countP_cons]

theorem place_mono {later : Nat} (le : index ≤ later) :
    place keep sequence index ≤ place keep sequence later :=
  ((List.take_prefix_take_left le).sublist).countP_le

theorem place_succ_le (keep : Instruction → Bool) (sequence : List Instruction) (index : Nat) :
    place keep sequence (index + 1) ≤ place keep sequence index + 1 := by
  cases found : sequence[index]? with
  | none => simp [place, List.take_add_one, found]
  | some instruction =>
      rw [place_succ found]
      cases keep instruction <;> simp

/-- An instruction that is kept is found at its place. -/
theorem getElem?_place (found : sequence[index]? = some instruction)
    (isKept : keep instruction = true) :
    (sequence.filter keep)[place keep sequence index]? = some instruction := by
  have next : place keep sequence (index + 1) = place keep sequence index + 1 := by
    rw [place_succ found, if_pos isKept]
  have front : (sequence.filter keep).take (place keep sequence index + 1) =
      (sequence.filter keep).take (place keep sequence index) ++ [instruction] := by
    rw [← next, take_place, take_place, List.take_add_one, found, List.filter_append]
    simp [isKept]
  rw [List.take_add_one, List.append_cancel_left_eq] at front
  exact Option.toList_eq_singleton_iff.mp front

/-- Behind the last instruction there is nothing to be kept. -/
theorem getElem?_place_eq_none (missing : sequence[index]? = none) :
    (sequence.filter keep)[place keep sequence index]? = none := by
  rw [List.getElem?_eq_none_iff] at missing ⊢
  have all : place keep sequence index = (sequence.filter keep).length := by
    rw [place, List.take_of_length_le missing, List.countP_eq_length_filter]
  exact Nat.le_of_eq all.symm

/-- Places leave no gap between them. -/
theorem exists_place_eq {first last count : Nat} (above : place keep sequence first < count)
    (within : count ≤ place keep sequence last) :
    ∃ index, first < index ∧ index ≤ last ∧ place keep sequence index = count := by
  induction last with
  | zero => exact absurd (Nat.lt_of_lt_of_le above within) (Nat.not_lt_zero _)
  | succ last ih =>
      by_cases earlier : count ≤ place keep sequence last
      · obtain ⟨index, later, le, same⟩ := ih earlier
        exact ⟨index, later, Nat.le_succ_of_le le, same⟩
      · have step := place_succ_le keep sequence last
        have same : place keep sequence (last + 1) = count := by omega
        refine ⟨last + 1, ?_, Nat.le_refl _, same⟩
        apply Nat.lt_of_not_le
        intro before
        have mono : place keep sequence (last + 1) ≤ place keep sequence first := place_mono before
        omega

end Place

section Kept

variable {keep : Instruction → Bool} {sequence : List Instruction}
  (kept : ∀ instruction : Instruction, instruction.isBracket = true → keep instruction = true)

include kept

theorem opens_filter (sequence : List Instruction) :
    opens (sequence.filter keep) = opens sequence :=
  List.count_filter (kept .loopOpen rfl)

theorem closes_filter (sequence : List Instruction) :
    closes (sequence.filter keep) = closes sequence :=
  List.count_filter (kept .loopClose rfl)

theorem level_filter (sequence : List Instruction) :
    level (sequence.filter keep) = level sequence := by
  rw [level, level, opens_filter kept, closes_filter kept]

/-- What is left is balanced when the whole is. -/
theorem balanced_filter_iff : Balanced (sequence.filter keep) ↔ Balanced sequence := by
  constructor
  · intro balanced
    constructor
    · intro start isStart
      have filtered := balanced.prefixes _ (isStart.filter keep)
      rwa [opens_filter kept, closes_filter kept] at filtered
    · have total := balanced.total
      rwa [opens_filter kept, closes_filter kept] at total
  · intro balanced
    constructor
    · intro start isStart
      obtain ⟨whole, isWholeStart, rfl⟩ := List.prefix_filter_iff.mp isStart
      rw [opens_filter kept, closes_filter kept]
      exact balanced.prefixes _ isWholeStart
    · rw [opens_filter kept, closes_filter kept]
      exact balanced.total

/-- A loop encloses what is left of what it enclosed. -/
theorem Encloses.filter {opening closing : Nat} (encloses : Encloses sequence opening closing) :
    Encloses (sequence.filter keep) (place keep sequence opening)
      (place keep sequence closing) := by
  have openingNext : place keep sequence (opening + 1) = place keep sequence opening + 1 := by
    rw [place_succ encloses.opened, if_pos (kept .loopOpen rfl)]
  have closingNext : place keep sequence (closing + 1) = place keep sequence closing + 1 := by
    rw [place_succ encloses.closed, if_pos (kept .loopClose rfl)]
  have same (index : Nat) : level ((sequence.filter keep).take (place keep sequence index)) =
      level (sequence.take index) := by
    rw [take_place, level_filter kept]
  constructor
  · exact getElem?_place encloses.opened (kept .loopOpen rfl)
  · exact getElem?_place encloses.closed (kept .loopClose rfl)
  · rw [← Nat.succ_le_iff, Nat.succ_eq_add_one, ← openingNext]
    exact place_mono encloses.before
  · intro count above within
    obtain ⟨index, later, le, rfl⟩ := exists_place_eq above within
    rw [same, same]
    exact encloses.inside index later le
  · rw [← closingNext, same, same]
    exact encloses.after

end Kept

end ForkTape.Bracket
