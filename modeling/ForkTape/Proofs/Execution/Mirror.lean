import ForkTape.Execution
import ForkTape.Proofs.Pool.Mirror

/-!
# Executions on machines that mirror each other

Where machines mirror each other (`Machine.Mirrors`), a program that is executed on them has the
same answer, in a pool as well as on one machine alone, unless a fault that parts the machines has
ended the first execution.
-/

namespace ForkTape.Execution

open Machine (Mirrors)

/-- A fault of the given kind has ended the execution. -/
def EndedBy (kind : Fault → Prop) (answer : Except Failure α) : Prop :=
  ∃ fault report, kind fault ∧ answer = .error (.aborted fault report)

variable {fuel : Nat} {program : Program} {input mirrorInput : Input} {other : Machine.Config}
  {alike : Machine → Machine → Prop} {parts : Fault → Prop}

/-- The answers of a program that is executed in a pool are mirrored. -/
theorem answer_ofProgram_mirrored {config : Pool.Config} {answer : Except Failure Report}
    (mirrors : Mirrors program config.inputSplit config.machine other alike parts)
    (start : alike (.initial config.machine input) (.initial other mirrorInput))
    (returned : (ofProgram fuel program input config).map Execution.answer = some answer) :
    EndedBy parts answer ∨
      (ofProgram fuel program mirrorInput (config.withMachine other)).map Execution.answer =
        some answer := by
  rw [ofProgram, Option.map_map, Option.map_eq_some_iff] at returned
  obtain ⟨⟨pool, outcome⟩, ran, rfl⟩ := returned
  have pools : (Pool.initial config input).Mirrored alike
      (Pool.initial (config.withMachine other) mirrorInput) :=
    ⟨.cons start .nil, .nil, rfl, rfl, rfl⟩
  rcases pools.run mirrors ran with ⟨fault, rfl, parted⟩ | ⟨mirror, found, mirrored⟩
  · exact .inl ⟨fault, pool.report, parted, rfl⟩
  · right
    rw [ofProgram, found]
    cases outcome <;> simp [mirrored.report_eq mirrors]

/-- The answers of a program that is executed on one machine alone are mirrored. -/
theorem answer_ofProgramAlone_mirrored {split : Input.Split} {config : Machine.Config}
    {answer : Except Failure Machine.Result}
    (mirrors : Mirrors program split config other alike parts)
    (start : alike (.initial config input) (.initial other mirrorInput))
    (returned : (ofProgramAlone fuel program input config).map Execution.answer = some answer) :
    EndedBy parts answer ∨
      (ofProgramAlone fuel program mirrorInput other).map Execution.answer = some answer := by
  rw [ofProgramAlone, Option.map_map, Option.map_eq_some_iff] at returned
  obtain ⟨⟨machine, outcome, log⟩, ran, rfl⟩ := returned
  rcases mirrors.run start ran with
    ⟨fault, rfl, parted⟩ | ⟨⟨mirror, mirrorOutcome, mirrorLog⟩, found, rfl, related⟩
  · exact .inl ⟨fault, soloReport machine.result, parted, rfl⟩
  · right
    rw [ofProgramAlone, found]
    cases mirrorOutcome <;> simp [mirrors.result related]

end ForkTape.Execution
