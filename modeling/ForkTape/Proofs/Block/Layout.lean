import ForkTape.Proofs.Block

/-!
# Where a block stands in a program

A part of a program is a block when its instructions and its slots are those of the block. What
the machine reads at the instructions of the block then follows by cases on the block.
-/

namespace ForkTape.Block

/-- The instructions of `program` from index `start` on are those of `block`, and they are
paired as the block pairs them. -/
structure At (program : Program) (start : Nat) (block : Block) : Prop where
  instruction : ∀ index < block.size,
    program.instruction? (start + index) = block.instructions[index]?
  partner : ∀ index < block.size,
    program.partner? (start + index) = (block.slots start)[index]?.join

namespace At

variable {program : Program} {start : Nat} {action : Action} {body rest : Block}

theorem act_instruction (located : At program start (act action rest)) :
    program.instruction? start = some action.val :=
  located.instruction 0 (by simp [size])

theorem act_rest (located : At program start (act action rest)) :
    At program (start + 1) rest := by
  constructor
  · intro index index_lt
    have found := located.instruction (index + 1) (by simp only [size]; omega)
    rw [show start + 1 + index = start + (index + 1) by omega, found]
    rfl
  · intro index index_lt
    have found := located.partner (index + 1) (by simp only [size]; omega)
    rw [show start + 1 + index = start + (index + 1) by omega, found]
    rfl

theorem loop_open (located : At program start (loop body rest)) :
    program.instruction? start = some .loopOpen ∧
      program.partner? start = some (start + 1 + body.size) :=
  ⟨located.instruction 0 (by simp [size]), located.partner 0 (by simp [size])⟩

theorem loop_body (located : At program start (loop body rest)) :
    At program (start + 1) body := by
  constructor
  · intro index index_lt
    have found := located.instruction (index + 1) (by simp only [size]; omega)
    rw [show start + 1 + index = start + (index + 1) by omega, found, instructions,
      List.getElem?_cons_succ, List.getElem?_append_left (by simpa using index_lt)]
  · intro index index_lt
    have found := located.partner (index + 1) (by simp only [size]; omega)
    rw [show start + 1 + index = start + (index + 1) by omega, found, slots,
      List.getElem?_cons_succ, List.getElem?_append_left (by simpa using index_lt)]

theorem loop_close (located : At program start (loop body rest)) :
    program.instruction? (start + 1 + body.size) = some .loopClose ∧
      program.partner? (start + 1 + body.size) = some start := by
  rw [show start + 1 + body.size = start + (body.size + 1) by omega]
  constructor
  · rw [located.instruction _ (by simp only [size]; omega)]
    simp [instructions]
  · rw [located.partner _ (by simp only [size]; omega)]
    simp [slots]

theorem loop_rest (located : At program start (loop body rest)) :
    At program (start + 1 + body.size + 1) rest := by
  constructor
  · intro index index_lt
    have found := located.instruction (body.size + index + 2) (by simp only [size]; omega)
    rw [show start + 1 + body.size + 1 + index = start + (body.size + index + 2) by omega, found,
      instructions, List.getElem?_cons_succ,
      List.getElem?_append_right (by simp only [length_instructions]; omega),
      length_instructions, show body.size + index + 1 - body.size = index + 1 by omega,
      List.getElem?_cons_succ]
  · intro index index_lt
    have found := located.partner (body.size + index + 2) (by simp only [size]; omega)
    rw [show start + 1 + body.size + 1 + index = start + (body.size + index + 2) by omega, found,
      slots, List.getElem?_cons_succ,
      List.getElem?_append_right (by simp only [length_slots]; omega),
      length_slots, show body.size + index + 1 - body.size = index + 1 by omega,
      List.getElem?_cons_succ]

end At

/-- A program is laid out as the block that its instructions write out. -/
theorem at_of_parse? {program : Program} {block : Block}
    (parsed : parse? program.instructions.toList = some block) : At program 0 block := by
  have instructionsEq : program.instructions = block.instructions.toArray := by
    rw [← Array.toList_inj, parse?_eq_some_iff.mp parsed]
  have pairingEq : program.pairing = ⟨(block.slots 0).toArray⟩ := by
    have paired := program.paired
    rw [instructionsEq, ofInstructions_instructions] at paired
    exact (Except.ok.inj paired).symm
  constructor
  · intro index _
    simp [Program.instruction?, instructionsEq]
  · intro index _
    simp [Program.partner?, Pairing.partner?, pairingEq]

/-- The size of a program is the size of its block. -/
theorem size_of_parse? {program : Program} {block : Block}
    (parsed : parse? program.instructions.toList = some block) : block.size = program.size := by
  rw [← length_instructions, parse?_eq_some_iff.mp parsed, Array.length_toList]
  rfl

end ForkTape.Block
