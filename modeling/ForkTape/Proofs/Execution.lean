import ForkTape.Execution
import ForkTape.Proofs.Pool.Alone

/-!
# Executing alone and in a pool

Where no `fork` can be carried out, it makes no difference whether a source text is executed in a
pool or on one machine alone. `Execution.Agree` says what that means for the two answers; it
allows for the one instruction that only a machine alone counts, the move past the last cell.
-/

namespace ForkTape

namespace Execution

open Pool (Holds Matches Forkless refusalsAt)

/-- The answers of an execution in a pool and of one alone agree, when the machine has executed
the `fork`s at `sites` one after the other. -/
inductive Agree (budget : Nat) (sites : List Nat) :
    Except Failure Report → Except Failure Machine.Result → Prop
  | malformed (error : BracketError) :
      Agree budget sites (.error (.malformed error)) (.error (.malformed error))
  | finished {report : Report} {result : Machine.Result}
      (results : report.results = [result])
      (refusals : report.refusals = refusalsAt budget sites)
      (totalSteps : report.totalSteps = result.steps) :
      Agree budget sites (.ok report) (.ok result)
  | stepLimit {machine limit : Nat} {report alone : Report} {result : Machine.Result}
      (results : report.results = [result]) (resultsAlone : alone.results = [result])
      (refusals : report.refusals = refusalsAt budget sites)
      (totalSteps : report.totalSteps = alone.totalSteps) :
      Agree budget sites (.error (.aborted (.stepLimit machine limit) report))
        (.error (.aborted (.stepLimit machine limit) alone))
  | tapeOverflow {machine capacity : Nat} {report alone : Report} {result : Machine.Result}
      (results : report.results = [result]) (resultsAlone : alone.results = [result])
      (refusals : report.refusals = refusalsAt budget sites)
      (totalSteps : report.totalSteps + 1 = alone.totalSteps) :
      Agree budget sites (.error (.aborted (.tapeOverflow machine capacity) report))
        (.error (.aborted (.tapeOverflow machine capacity) alone))

variable {program : Program} {config : Pool.Config} {input : Input}

theorem holds_initial (config : Pool.Config) (input : Input) :
    Holds config (Machine.initial config.machine input, #[]) (Pool.initial config input) :=
  ⟨rfl, rfl, rfl, rfl, rfl, rfl⟩

/-- A program comes to an end in a pool when it does alone. -/
theorem exists_ofProgram_iff (forkless : Forkless program config)
    (unlimited : config.maxGlobalSteps = none) :
    (∃ fuel execution, ofProgram fuel program input config = some execution) ↔
      ∃ fuel alone, ofProgramAlone fuel program input config.machine = some alone := by
  have keeps := Pool.keepsStep forkless unlimited
  constructor
  · rintro ⟨fuel, execution, returned⟩
    rw [ofProgram, Option.map_eq_some_iff] at returned
    obtain ⟨ending, ran, _⟩ := returned
    obtain ⟨run, ⟨aloneFuel, found⟩, _⟩ :=
      keeps.backward (holds_initial config input) ⟨fuel, ran⟩
    exact ⟨aloneFuel, _, by rw [ofProgramAlone, Machine.run, found, Option.map_some]⟩
  · rintro ⟨fuel, alone, returned⟩
    rw [ofProgramAlone, Option.map_eq_some_iff] at returned
    obtain ⟨run, ran, _⟩ := returned
    obtain ⟨ending, ⟨poolFuel, found⟩, _⟩ :=
      keeps.forward (holds_initial config input) ⟨fuel, ran⟩
    exact ⟨poolFuel, _, by rw [ofProgram, Pool.run, found, Option.map_some]⟩

/-- Where no `fork` can be carried out, what the two runs leave matches. -/
theorem matches_of_run (forkless : Forkless program config)
    (unlimited : config.maxGlobalSteps = none) {fuel aloneFuel : Nat}
    {ending : Pool × Except Fault Unit} {run : Machine.Run}
    (ran : (Pool.initial config input).run program config fuel = some ending)
    (ranAlone : (Machine.initial config.machine input).run program config.machine aloneFuel =
      some run) : Matches config run ending := by
  obtain ⟨other, found, matched⟩ := (Pool.keepsStep forkless unlimited).forward
    (holds_initial config input) ⟨aloneFuel, ranAlone⟩
  rwa [Answers.unique ⟨fuel, ran⟩ found]

/-- Where no `fork` can be carried out, a program executed in a pool and alone gives answers that
agree. -/
theorem ofProgram_agree (forkless : Forkless program config)
    (unlimited : config.maxGlobalSteps = none) {fuel aloneFuel : Nat}
    {execution : Execution Report} {alone : Execution Machine.Result}
    (returned : ofProgram fuel program input config = some execution)
    (returnedAlone : ofProgramAlone aloneFuel program input config.machine = some alone) :
    Agree config.maxLive
      (Machine.forkSites program config.machine aloneFuel
        (Machine.initial config.machine input))
      execution.answer alone.answer := by
  rw [ofProgram, Option.map_eq_some_iff] at returned
  rw [ofProgramAlone, Option.map_eq_some_iff] at returnedAlone
  obtain ⟨ending, ran, rfl⟩ := returned
  obtain ⟨run, ranAlone, rfl⟩ := returnedAlone
  obtain ⟨outcome_eq, machines, refusals, charges⟩ := matches_of_run forkless unlimited ran ranAlone
  rcases ending with ⟨pool, ended⟩
  rcases run with ⟨machine, outcome, log⟩
  obtain rfl : ended = outcome := outcome_eq
  rw [Machine.passed_log_run ranAlone] at refusals
  have results : pool.report.results = [machine.result] := congrArg (List.map _) machines
  cases ended with
  | ok value => exact .finished results refusals charges
  | error fault =>
      cases fault with
      | stepLimit id limit => exact .stepLimit results rfl refusals charges
      | tapeOverflow id capacity => exact .tapeOverflow results rfl refusals charges
      | _ => exact charges.elim

end Execution

/-- The indices of the `fork`s that a source text executed on one machine alone executes, one
after the other, in at most `fuel` turns. -/
def forkSites (fuel : Nat) (source : String) (input : Input) (settings : Settings) : List Nat :=
  match Program.load source settings.spelling with
  | .ok program =>
      Machine.forkSites program settings.pool.machine fuel
        (Machine.initial settings.pool.machine input)
  | .error _ => []

/-- With room for one machine only, or without a `fork`, and without a global limit, a source
text comes to an end in a pool exactly when it does on one machine alone. The answers then agree:
the text is malformed alike, or there is one result, which is the same, and one refusal for every
`fork` executed. -/
theorem execute_agree {source : String} {input : Input} {settings : Settings}
    (unlimited : settings.pool.maxGlobalSteps = none)
    (forkless : settings.pool.maxLive ≤ 1 ∨ ∀ program,
      Program.load source settings.spelling = .ok program →
        Instruction.fork ∉ program.instructions) :
    ((∃ fuel execution, execute fuel source input settings = some execution) ↔
      ∃ fuel alone, executeAlone fuel source input settings = some alone) ∧
    ∀ fuel aloneFuel execution alone, execute fuel source input settings = some execution →
      executeAlone aloneFuel source input settings = some alone →
      Execution.Agree settings.pool.maxLive (forkSites aloneFuel source input settings)
        execution.answer alone.answer := by
  simp only [execute, executeAlone, forkSites]
  cases loaded : Program.load source settings.spelling with
  | error error =>
      constructor
      · exact ⟨fun _ => ⟨0, _, rfl⟩, fun _ => ⟨0, _, rfl⟩⟩
      · rintro fuel aloneFuel execution alone ⟨⟩ ⟨⟩
        exact .malformed error
  | ok program =>
      have forkless : Pool.Forkless program settings.pool :=
        forkless.imp_right fun absent => absent program loaded
      constructor
      · exact Execution.exists_ofProgram_iff forkless unlimited
      · intro fuel aloneFuel execution alone
        exact Execution.ofProgram_agree forkless unlimited

/-- A pool with room for one machine. -/
def roomForOne : Settings where
  pool := { maxLive := 1, maxGlobalSteps := none }

/-- The `fork` of `+FORK`, at index 1, is refused in the pool and passed alone. -/
theorem execute_agree_plus_fork : ∃ execution alone,
    execute 4 "+FORK" ⟨[]⟩ roomForOne = some execution ∧
      executeAlone 4 "+FORK" ⟨[]⟩ roomForOne = some alone ∧
      Execution.Agree 1 [1] execution.answer alone.answer := by
  have returns : (execute 4 "+FORK" ⟨[]⟩ roomForOne).isSome = true := by decide +kernel
  have returnsAlone : (executeAlone 4 "+FORK" ⟨[]⟩ roomForOne).isSome = true := by
    decide +kernel
  have sites : forkSites 4 "+FORK" ⟨[]⟩ roomForOne = [1] := by decide +kernel
  obtain ⟨execution, returned⟩ := Option.isSome_iff_exists.mp returns
  obtain ⟨alone, returnedAlone⟩ := Option.isSome_iff_exists.mp returnsAlone
  have agree := (execute_agree rfl (.inl (Nat.le_refl 1))).2 4 4 _ _ returned returnedAlone
  rw [sites] at agree
  exact ⟨execution, alone, returned, returnedAlone, agree⟩

end ForkTape
