import ForkTape.Proofs.Machine.Exec
import ForkTape.Proofs.Machine.Mirror

/-!
# Zeros at the end of the input

The end of the input reads as zero, so an input stands for an endless row of bytes
(`Input.stream`), and a machine that reads sees nothing else of it. Zeros at its end do not change
that row. Machines whose inputs stand for the same row mirror each other (`mirrors_readsAlike`), as
long as a `fork` hands over the input as a whole: halving it looks at its length.
-/

namespace ForkTape

namespace Input

/-- The byte that is read after `index` others. -/
def stream (input : Input) (index : Nat) : UInt8 := input.unread.getD index 0

/-- The input with zeros at its end. -/
def withZeros (zeros : Nat) (input : Input) : Input :=
  ⟨input.unread ++ List.replicate zeros 0⟩

/-- Reading takes the first byte of the row. -/
theorem read_fst (input : Input) : input.read.1 = input.stream 0 := by
  rcases input with ⟨unread⟩
  cases unread <;> rfl

theorem stream_read_snd (input : Input) (index : Nat) :
    input.read.2.stream index = input.stream (index + 1) := by
  rcases input with ⟨unread⟩
  cases unread <;> rfl

/-- Zeros at the end of the input change nothing in the row. -/
theorem stream_withZeros (zeros : Nat) (input : Input) :
    (input.withZeros zeros).stream = input.stream := by
  funext index
  simp only [stream, withZeros, List.getD_eq_getElem?_getD]
  by_cases within : index < input.unread.length
  · rw [List.getElem?_append_left within]
  · rw [List.getElem?_append_right (Nat.le_of_not_lt within),
      List.getElem?_eq_none (Nat.le_of_not_lt within), List.getElem?_replicate]
    split <;> rfl

/-- Handing over the input as a whole hands over its row. -/
theorem stream_split {input mirror : Input} {policy : Split} (whole : policy ≠ .halve)
    (same : mirror.stream = input.stream) :
    (mirror.split policy).1.stream = (input.split policy).1.stream ∧
      (mirror.split policy).2.stream = (input.split policy).2.stream := by
  cases policy with
  | halve => contradiction
  | parentKeeps => simpa [split, Split.kept] using same
  | childTakes => simpa [split, Split.kept] using same

end Input

namespace Machine

/-- The machine `mirror` is `machine` with an input that stands for the same row of bytes. -/
structure ReadsAlike (machine mirror : Machine) : Prop where
  input : mirror.input.stream = machine.input.stream
  rest : mirror = { machine with input := mirror.input }

variable {machine mirror : Machine}

theorem ReadsAlike.exists_input (related : ReadsAlike machine mirror) :
    ∃ input : Input, input.stream = machine.input.stream ∧
      mirror = { machine with input := input } :=
  ⟨mirror.input, related.input, related.rest⟩

/-- Carrying out an instruction reads alike. -/
theorem ReadsAlike.perform (related : ReadsAlike machine mirror) (program : Program)
    (overflow : Tape.Overflow) (instruction : Instruction) :
    (Machine.perform program overflow instruction mirror).outcome =
        (Machine.perform program overflow instruction machine).outcome ∧
      ReadsAlike (Machine.perform program overflow instruction machine).machine
        (Machine.perform program overflow instruction mirror).machine := by
  obtain ⟨input, same, rfl⟩ := related.exists_input
  cases instruction with
  | input =>
      have byte : input.read.1 = machine.input.read.1 := by
        rw [Input.read_fst, Input.read_fst, same]
      have rest : input.read.2.stream = machine.input.read.2.stream := by
        funext index
        rw [Input.stream_read_snd, Input.stream_read_snd, same]
      simp only [Machine.perform, byte]
      exact ⟨trivial, rest, rfl⟩
  | right =>
      rcases moved : machine.tape.right overflow with ⟨tape, result⟩
      simp only [Machine.perform, moved]
      cases result <;> exact ⟨rfl, same, rfl⟩
  | _ => exact ⟨rfl, same, rfl⟩

/-- Machines whose inputs stand for the same row mirror each other. -/
theorem mirrors_readsAlike (program : Program) {split : Input.Split} (whole : split ≠ .halve)
    (config : Config) : Mirrors program split config config ReadsAlike fun _ => False where
  result related := by
    obtain ⟨input, _, rfl⟩ := related.exists_input
    rfl
  ip related := by
    obtain ⟨input, _, rfl⟩ := related.exists_input
    rfl
  exec {machine mirror} related := by
    right
    obtain ⟨input, same, rfl⟩ := related.exists_input
    simp only [Machine.exec]
    split
    · exact ⟨rfl, same, rfl⟩
    split
    · exact ⟨rfl, same, rfl⟩
    split
    · exact ⟨rfl, same, rfl⟩
    · exact ReadsAlike.perform ⟨same, rfl⟩ program config.overflow _
  passFork related := by
    obtain ⟨input, same, rfl⟩ := related.exists_input
    exact ⟨same, rfl⟩
  fork related child := by
    obtain ⟨input, same, rfl⟩ := related.exists_input
    obtain ⟨kept, taken⟩ := Input.stream_split whole same
    exact ⟨⟨kept, rfl⟩, ⟨taken, rfl⟩⟩

end Machine

end ForkTape
