import ForkTape.Proofs.Execution.Mirror
import ForkTape.Proofs.Machine.TapeRoom

/-!
# Executions with other room on the tape

How many cells a tape has to begin with, and what a move past the last of them does, decides the
answer of an execution only where a machine comes to such a move. Tapes that grow may begin with
any number of cells, and an execution that has not been ended by a move past the last cell has
the same answer with more cells, under every policy (`execute_withTape`).
-/

namespace ForkTape

/-- The configuration with another policy for moves past the last cell, and another number of cells
to begin with. -/
def Pool.Config.withTape (overflow : Tape.Overflow) (capacity : Nat) (config : Config) : Config :=
  config.withMachine (config.machine.withTape overflow capacity)

/-- The settings with another policy for moves past the last cell, and another number of cells to
begin with. -/
def Settings.withTape (overflow : Tape.Overflow) (capacity : Nat) (settings : Settings) :
    Settings :=
  { settings with pool := settings.pool.withTape overflow capacity }

namespace Execution

open Machine (Outruns Roomy mirrors_roomy)

/-- A move past the last cell has ended the execution. -/
def Overflowed (answer : Except Failure α) : Prop :=
  ∃ machine capacity report, answer = .error (.aborted (.tapeOverflow machine capacity) report)

/-- The room on the tape does not decide the answer, which is given by policy and number of cells,
of an execution that fits in. -/
structure TapeRoomUnseen (answer? : Tape.Overflow → Nat → Option (Except Failure α)) : Prop where
  grow {capacity : Nat} {answer : Except Failure α}
    (returned : answer? .grow capacity = some answer) (other : Nat) :
    answer? .grow other = some answer
  reject {capacity : Nat} {answer : Except Failure α}
    (returned : answer? .reject capacity = some answer) (fits : ¬ Overflowed answer)
    (overflow : Tape.Overflow) {other : Nat} (room : max 1 capacity ≤ max 1 other) :
    answer? overflow other = some answer

/-- Answers that are mirrored, unless a rejected move has ended the first execution, do not depend
on the room on the tape. -/
theorem tapeRoomUnseen {answer? : Tape.Overflow → Nat → Option (Except Failure α)}
    (mirrored : ∀ {overflow other : Tape.Overflow} {capacity otherCapacity : Nat}
      {answer : Except Failure α}, Tape.Suffices capacity otherCapacity overflow other →
      answer? overflow capacity = some answer →
      (overflow = .reject ∧ Overflowed answer) ∨ answer? other otherCapacity = some answer) :
    TapeRoomUnseen answer? where
  grow returned other := by
    rcases mirrored .grow returned with ⟨isReject, _⟩ | found
    · contradiction
    · exact found
  reject returned fits overflow other room := by
    rcases mirrored (.reject overflow room) returned with ⟨_, overflowed⟩ | found
    · exact absurd overflowed fits
    · exact found

variable {fuel : Nat} {program : Program} {input : Input} {overflow other : Tape.Overflow}
  {capacity otherCapacity : Nat}

theorem roomy_initial (config : Machine.Config) (input : Input)
    (room : Tape.Suffices capacity otherCapacity overflow other) :
    Roomy overflow other (.initial (config.withTape overflow capacity) input)
      (.initial (config.withTape other otherCapacity) input) :=
  ⟨.ofCapacity room, rfl⟩

/-- Only where moves past the last cell are faults can one of them end an execution. -/
theorem EndedBy.overflowed {answer : Except Failure α}
    (ended : EndedBy (Outruns overflow) answer) : overflow = .reject ∧ Overflowed answer := by
  obtain ⟨fault, report, ⟨isReject, machine, cells, rfl⟩, rfl⟩ := ended
  exact ⟨isReject, machine, cells, report, rfl⟩

/-- The answers of a program that is executed in a pool are mirrored. -/
theorem answer_ofProgram_withTape {config : Pool.Config} {answer : Except Failure Report}
    (room : Tape.Suffices capacity otherCapacity overflow other)
    (returned : (ofProgram fuel program input (config.withTape overflow capacity)).map
      Execution.answer = some answer) :
    (overflow = .reject ∧ Overflowed answer) ∨
      (ofProgram fuel program input (config.withTape other otherCapacity)).map
        Execution.answer = some answer := by
  have mirrors : Machine.Mirrors program (config.withTape overflow capacity).inputSplit
      (config.withTape overflow capacity).machine
      (config.machine.withTape other otherCapacity) (Roomy overflow other) (Outruns overflow) :=
    mirrors_roomy ..
  have mirrored := answer_ofProgram_mirrored mirrors (roomy_initial config.machine input room)
    returned
  exact mirrored.imp_left EndedBy.overflowed

/-- The answers of a program that is executed on one machine alone are mirrored. -/
theorem answer_ofProgramAlone_withTape {config : Machine.Config}
    {answer : Except Failure Machine.Result}
    (room : Tape.Suffices capacity otherCapacity overflow other)
    (returned : (ofProgramAlone fuel program input (config.withTape overflow capacity)).map
      Execution.answer = some answer) :
    (overflow = .reject ∧ Overflowed answer) ∨
      (ofProgramAlone fuel program input (config.withTape other otherCapacity)).map
        Execution.answer = some answer := by
  -- A machine alone never forks, so how it would split its input does not matter.
  have mirrors := mirrors_roomy program .halve config overflow other capacity otherCapacity
  have mirrored := answer_ofProgramAlone_mirrored mirrors (roomy_initial config input room) returned
  exact mirrored.imp_left EndedBy.overflowed

end Execution

open Execution (TapeRoomUnseen tapeRoomUnseen)

/-- Whatever source text is executed, in a pool or on one machine alone, the room on the tape does
not decide the answer where the execution fits in. -/
theorem execute_withTape (fuel : Nat) (source : String) (input : Input) (settings : Settings) :
    TapeRoomUnseen (fun overflow capacity =>
      (execute fuel source input (settings.withTape overflow capacity)).map Execution.answer) ∧
    TapeRoomUnseen (fun overflow capacity =>
      (executeAlone fuel source input (settings.withTape overflow capacity)).map
        Execution.answer) := by
  have spelling (overflow : Tape.Overflow) (capacity : Nat) :
      (settings.withTape overflow capacity).spelling = settings.spelling := rfl
  simp only [execute, executeAlone, spelling]
  cases Program.load source settings.spelling with
  | error error =>
      exact ⟨tapeRoomUnseen fun _ => .inr, tapeRoomUnseen fun _ => .inr⟩
  | ok program =>
      exact ⟨tapeRoomUnseen Execution.answer_ofProgram_withTape,
        tapeRoomUnseen Execution.answer_ofProgramAlone_withTape⟩

/-- The program `>+.` fits in two cells, so it does the same with more, whatever the policy. -/
theorem right_inc_output_withTape : ∃ answer,
    (execute 6 ">+." ⟨[]⟩ (Settings.withTape .reject 2 {})).map Execution.answer = some answer ∧
      ∀ overflow other, 2 ≤ other →
        (execute 6 ">+." ⟨[]⟩ (Settings.withTape overflow other {})).map Execution.answer =
          some answer := by
  have ends : (execute 6 ">+." ⟨[]⟩ (Settings.withTape .reject 2 {})).map
      (fun execution => execution.answer.isOk) = some true := by decide +kernel
  obtain ⟨execution, returned, finished⟩ := Option.map_eq_some_iff.mp ends
  have answered : (execute 6 ">+." ⟨[]⟩ (Settings.withTape .reject 2 {})).map Execution.answer =
      some execution.answer := by rw [returned, Option.map_some]
  have fits : ¬ Execution.Overflowed execution.answer := by
    rintro ⟨machine, capacity, report, overflowed⟩
    rw [overflowed] at finished
    contradiction
  refine ⟨execution.answer, answered, fun overflow other room => ?_⟩
  exact (execute_withTape 6 ">+." ⟨[]⟩ {}).1.reject answered fits overflow (by omega)

end ForkTape
