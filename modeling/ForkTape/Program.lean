import ForkTape.Bracket.Pairing
import ForkTape.Source

/-!
# Programs

A program is a sequence of instructions whose brackets pair up, together with that pairing and
with what is known of the instructions' places in a source text. The type holds nothing else:
`paired` says that the pairing is the one its instructions determine, so a bracket without a
partner cannot occur in a program.
-/

namespace ForkTape

/-- A sequence of instructions with its pairing of brackets. -/
structure Program where
  instructions : Array Instruction
  /-- Source offsets, by index. There may be fewer or more of them than instructions. -/
  offsets : Array Nat
  pairing : Pairing
  paired : Pairing.ofInstructions instructions offsets = .ok pairing

namespace Program

/-- The program with the given instructions, if their brackets pair up. -/
def ofInstructions (instructions : Array Instruction) (offsets : Array Nat) :
    Except BracketError Program :=
  match paired : Pairing.ofInstructions instructions offsets with
  | .ok pairing => .ok ⟨instructions, offsets, pairing, paired⟩
  | .error error => .error error

/-- The program with the given located instructions, if their brackets pair up. -/
def ofLocated (found : Array Located) : Except BracketError Program :=
  ofInstructions (found.map Located.instruction) (found.map Located.offset)

/-- The program of a source text, if its brackets pair up. -/
def load (source : String) (spelling : ForkSpelling) : Except BracketError Program :=
  ofLocated (Source.instructions spelling source)

/-- The number of instructions. -/
def size (program : Program) : Nat := program.instructions.size

/-- The instruction at `index`. -/
def instruction? (program : Program) (index : Nat) : Option Instruction :=
  program.instructions[index]?

/-- The source offset of the instruction at `index`. -/
def offset? (program : Program) (index : Nat) : Option Nat :=
  program.offsets[index]?

/-- Where the bracket at `index` jumps to: the index of its partner. -/
def partner? (program : Program) (index : Nat) : Option Nat :=
  program.pairing.partner? index

/-- The number of loops. -/
def loopCount (program : Program) : Nat := program.pairing.pairs.length

/-- The number of `fork` instructions. -/
def forkCount (program : Program) : Nat := program.instructions.toList.count .fork

/-- Equal instructions at equal places make equal programs. -/
theorem ext_instructions {first second : Program}
    (instructions : first.instructions = second.instructions)
    (offsets : first.offsets = second.offsets) : first = second := by
  cases first with
  | mk _ _ _ firstPaired =>
      cases second with
      | mk _ _ _ secondPaired =>
          simp only at instructions offsets
          subst instructions offsets
          rw [firstPaired] at secondPaired
          cases secondPaired
          rfl

/-- A program is what its own instructions load to. -/
theorem ofInstructions_self (program : Program) :
    ofInstructions program.instructions program.offsets = .ok program := by
  unfold ofInstructions
  split
  · rename_i pairing paired
    exact congrArg Except.ok (ext_instructions rfl rfl)
  · rename_i error unpaired
    rw [program.paired] at unpaired
    cases unpaired

end Program

end ForkTape
