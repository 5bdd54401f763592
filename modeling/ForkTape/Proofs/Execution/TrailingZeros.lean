import ForkTape.Proofs.Execution.Mirror
import ForkTape.Proofs.Machine.TrailingZeros

/-!
# Executions with zeros at the end of the input

A source text executed on one machine alone has the same answer, or none, whether or not zeros are
put at the end of its input. So it has in a pool whose machines hand over their input as a whole
when they fork (`execute_withZeros`). A machine that halves its input shows them.
-/

namespace ForkTape

namespace Execution

open Machine (ReadsAlike mirrors_readsAlike)

variable {fuel : Nat} {program : Program} {input mirrorInput : Input}

theorem readsAlike_initial (config : Machine.Config) (same : mirrorInput.stream = input.stream) :
    ReadsAlike (.initial config input) (.initial config mirrorInput) :=
  ⟨same, rfl⟩

/-- A fault never parts machines that read alike. -/
theorem not_endedBy_false {answer : Except Failure α} : ¬ EndedBy (fun _ => False) answer := by
  rintro ⟨_, _, impossible, _⟩
  exact impossible

/-- In a pool whose machines hand over their input as a whole, inputs that stand for the same row of
bytes lead to the same answer. -/
theorem answer_ofProgram_of_stream_eq {config : Pool.Config} (whole : config.inputSplit ≠ .halve)
    {answer : Except Failure Report} (same : mirrorInput.stream = input.stream)
    (returned : (ofProgram fuel program input config).map Execution.answer = some answer) :
    (ofProgram fuel program mirrorInput config).map Execution.answer = some answer := by
  have mirrors := mirrors_readsAlike program whole config.machine
  have mirrored :=
    answer_ofProgram_mirrored mirrors (readsAlike_initial config.machine same) returned
  exact mirrored.resolve_left not_endedBy_false

/-- On one machine alone, inputs that stand for the same row of bytes lead to the same answer. -/
theorem answer_ofProgramAlone_of_stream_eq {config : Machine.Config}
    {answer : Except Failure Machine.Result} (same : mirrorInput.stream = input.stream)
    (returned : (ofProgramAlone fuel program input config).map Execution.answer = some answer) :
    (ofProgramAlone fuel program mirrorInput config).map Execution.answer = some answer := by
  -- A machine alone never forks, so how it would hand over its input does not matter.
  have whole : Input.Split.parentKeeps ≠ .halve := by decide
  have mirrors := mirrors_readsAlike program whole config
  have mirrored := answer_ofProgramAlone_mirrored mirrors (readsAlike_initial config same) returned
  exact mirrored.resolve_left not_endedBy_false

end Execution

/-- Zeros at the end of the input change no answer of a source text that is executed on one machine
alone, or in a pool whose machines do not halve their input: there is the same answer after as many
turns, or none. -/
theorem execute_withZeros (fuel : Nat) (source : String) (input : Input) (zeros : Nat)
    (settings : Settings) :
    (executeAlone fuel source (input.withZeros zeros) settings).map Execution.answer =
        (executeAlone fuel source input settings).map Execution.answer ∧
      (settings.pool.inputSplit ≠ .halve →
        (execute fuel source (input.withZeros zeros) settings).map Execution.answer =
          (execute fuel source input settings).map Execution.answer) := by
  have same := input.stream_withZeros zeros
  simp only [execute, executeAlone]
  cases Program.load source settings.spelling with
  | error error => exact ⟨rfl, fun _ => rfl⟩
  | ok program =>
      constructor
      · apply Option.ext
        intro answer
        exact ⟨Execution.answer_ofProgramAlone_of_stream_eq same.symm,
          Execution.answer_ofProgramAlone_of_stream_eq same⟩
      · intro whole
        apply Option.ext
        intro answer
        exact ⟨Execution.answer_ofProgram_of_stream_eq whole same.symm,
          Execution.answer_ofProgram_of_stream_eq whole same⟩

/-- A pool that splits input so and whose machines may execute five instructions together. -/
def fiveSteps (split : Input.Split) : Settings where
  pool := { inputSplit := split, maxGlobalSteps := some 5 }

/-- When `FORK,.+` is stopped, the child has written the byte that its parent had handed over. Two
zeros behind that byte make no difference. -/
theorem fork_input_output_withZeros :
    (fiveSteps .childTakes).pool.inputSplit ≠ .halve ∧
      (execute 4 "FORK,.+" ⟨[65]⟩ (fiveSteps .childTakes)).map
          (fun execution => execution.log.toList) =
        some [.forked 0 1 2, .wrote 0 0, .wrote 1 65] ∧
      (execute 4 "FORK,.+" ⟨[65, 0, 0]⟩ (fiveSteps .childTakes)).map Execution.answer =
        (execute 4 "FORK,.+" ⟨[65]⟩ (fiveSteps .childTakes)).map Execution.answer := by
  have whole : (fiveSteps .childTakes).pool.inputSplit ≠ .halve := by decide
  have written : (execute 4 "FORK,.+" ⟨[65]⟩ (fiveSteps .childTakes)).map
      (fun execution => execution.log.toList) =
      some [.forked 0 1 2, .wrote 0 0, .wrote 1 65] := by decide +kernel
  exact ⟨whole, written, (execute_withZeros 4 "FORK,.+" ⟨[65]⟩ 2 (fiveSteps .childTakes)).2 whole⟩

/-- Halving shows a zero: the parent keeps the byte that would go to the child if it were alone. -/
example :
    (execute 4 "FORK,.+" ⟨[65]⟩ (fiveSteps .halve)).map (fun execution => execution.log.toList) =
      some [.forked 0 1 2, .wrote 0 0, .wrote 1 65] ∧
    (execute 4 "FORK,.+" ⟨[65, 0]⟩ (fiveSteps .halve)).map
        (fun execution => execution.log.toList) =
      some [.forked 0 1 2, .wrote 0 65, .wrote 1 0] := by decide +kernel

end ForkTape
