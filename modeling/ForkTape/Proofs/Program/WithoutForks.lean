import ForkTape.Program
import ForkTape.Proofs.Bracket.Omission
import ForkTape.Proofs.Bracket.Pairing

/-!
# Programs without their forks

Leaving every `fork` out of a program gives a program again, because a `fork` bounds no loop
(`Program.exists_withoutForks`). Each of its instructions is one of the whole program, but stands at
another index (`Program.indexLessForks`). Brackets that are partners in the whole are partners in
what is left (`Program.WithoutForks.partner?_of_partner?`).
-/

namespace ForkTape.Program

open ForkTape.Bracket

/-- The program `rest` is `program` without its forks. -/
def WithoutForks (program rest : Program) : Prop :=
  rest.instructions.toList = program.instructions.toList.filter (· != .fork)

/-- The index that the instruction at `index` has when the forks before it are left out. -/
def indexLessForks (program : Program) (index : Nat) : Nat :=
  place (· != .fork) program.instructions.toList index

theorem ne_fork_of_isBracket (instruction : Instruction)
    (isBracket : instruction.isBracket = true) : (instruction != .fork) = true := by
  cases instruction <;> first | rfl | contradiction

/-- What is left of a program without its forks is a program. -/
theorem exists_withoutForks (program : Program) : ∃ rest, program.WithoutForks rest := by
  have whole := Pairing.balanced_of_scanned (Pairing.scanned_of_paired program.paired)
  have balanced : Balanced (program.instructions.filter (· != .fork)).toList := by
    rw [Array.toList_filter, balanced_filter_iff ne_fork_of_isBracket]
    exact whole
  cases result : Pairing.ofInstructions (program.instructions.filter (· != .fork)) #[] with
  | ok pairing => exact ⟨⟨_, _, pairing, result⟩, Array.toList_filter ..⟩
  | error error => exact absurd balanced (Pairing.unmatched_of_error result).not_balanced

section Index

variable {program : Program} {index : Nat} {instruction : Instruction}

theorem instruction?_eq_getElem?_toList (program : Program) (index : Nat) :
    program.instruction? index = program.instructions.toList[index]? :=
  Array.getElem?_toList.symm

/-- A `fork` is not counted. -/
theorem indexLessForks_succ_of_fork (found : program.instruction? index = some .fork) :
    program.indexLessForks (index + 1) = program.indexLessForks index := by
  rw [instruction?_eq_getElem?_toList] at found
  exact place_succ found

/-- Any other instruction is counted. -/
theorem indexLessForks_succ (found : program.instruction? index = some instruction)
    (plain : instruction ≠ .fork) :
    program.indexLessForks (index + 1) = program.indexLessForks index + 1 := by
  rw [instruction?_eq_getElem?_toList] at found
  rw [indexLessForks, place_succ found, if_pos (bne_iff_ne.mpr plain), indexLessForks]

/-- Every bracket of a program has a partner, which is a bracket. -/
theorem exists_partner? (found : program.instruction? index = some instruction)
    (isBracket : instruction.isBracket = true) :
    ∃ partner other, program.partner? index = some partner ∧
      program.instruction? partner = some other ∧ other.isBracket = true := by
  have matching := Pairing.matches_of_scanned (Pairing.scanned_of_paired program.paired)
  rw [instruction?_eq_getElem?_toList] at found
  have hasPartner := (matching.brackets index).mpr ⟨instruction, found, isBracket⟩
  obtain ⟨partner, paired⟩ := Option.isSome_iff_exists.mp hasPartner
  have back := matching.symmetric index partner paired
  obtain ⟨other, otherFound, otherIsBracket⟩ :=
    (matching.brackets partner).mp (Option.isSome_iff_exists.mpr ⟨index, back⟩)
  exact ⟨partner, other, paired, instruction?_eq_getElem?_toList program partner ▸ otherFound,
    otherIsBracket⟩

end Index

namespace WithoutForks

variable {program rest : Program} {index : Nat} {instruction : Instruction}

/-- An instruction that is no `fork` is still there. -/
theorem instruction?_of_ne_fork (dropped : program.WithoutForks rest)
    (found : program.instruction? index = some instruction) (plain : instruction ≠ .fork) :
    rest.instruction? (program.indexLessForks index) = some instruction := by
  rw [instruction?_eq_getElem?_toList] at found ⊢
  rw [dropped]
  exact getElem?_place found (bne_iff_ne.mpr plain)

/-- The end is still the end. -/
theorem instruction?_eq_none (dropped : program.WithoutForks rest)
    (missing : program.instruction? index = none) :
    rest.instruction? (program.indexLessForks index) = none := by
  rw [instruction?_eq_getElem?_toList] at missing ⊢
  rw [dropped]
  exact getElem?_place_eq_none missing

/-- Partners are still partners. -/
theorem partner?_of_partner? (dropped : program.WithoutForks rest) {partner : Nat}
    (paired : program.partner? index = some partner) :
    rest.partner? (program.indexLessForks index) = some (program.indexLessForks partner) := by
  have whole := Pairing.scanned_of_paired program.paired
  have left := Pairing.scanned_of_paired rest.paired
  rw [dropped] at left
  apply (left.partner _ _).mpr
  rcases (whole.partner index partner).mp paired with encloses | encloses
  · exact .inl (encloses.filter ne_fork_of_isBracket)
  · exact .inr (encloses.filter ne_fork_of_isBracket)

end WithoutForks

end ForkTape.Program
