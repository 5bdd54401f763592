import ForkTape.Execution
import ForkTape.Proofs.Pool.Replay

/-!
# Replaying the log of an execution

The log of an execution in a pool tells over again what the execution has produced, whether it has
come to a regular end or a fault has ended it.
-/

namespace ForkTape

namespace Execution

/-- What an execution has produced, if only until a fault ended it. -/
def report? (execution : Execution Report) : Option Report :=
  match execution.answer with
  | .ok report => some report
  | .error failure => failure.report?

/-- The log of a program that was executed in a pool tells the report over again. -/
theorem ofProgram_replays {fuel : Nat} {program : Program} {input : Input}
    {config : Pool.Config} {execution : Execution Report}
    (returned : ofProgram fuel program input config = some execution) :
    ∃ report, execution.report? = some report ∧
      report.Replays config.maxLive execution.log.toList := by
  rw [ofProgram, Option.map_eq_some_iff] at returned
  obtain ⟨⟨pool, outcome⟩, ran, rfl⟩ := returned
  have replays := Pool.replays_of_reachable (.run .initial ran)
  cases outcome <;> exact ⟨pool.report, rfl, replays⟩

end Execution

/-- However the execution of a source text in a pool ends, it has produced a report, which its log
tells over again. Only a text that does not load has none. -/
theorem log_replays {fuel : Nat} {source : String} {input : Input} {settings : Settings}
    {program : Program} {execution : Execution Report}
    (loaded : Program.load source settings.spelling = .ok program)
    (returned : execute fuel source input settings = some execution) :
    ∃ report, execution.report? = some report ∧
      report.Replays settings.pool.maxLive execution.log.toList := by
  rw [execute, loaded] at returned
  exact Execution.ofProgram_replays returned

/-- A pool whose machines may execute two instructions together. -/
def twoSteps : Settings where
  pool := { maxGlobalSteps := some 2 }

/-- The limit stops `FORK.` before the machine that is forked off can write. -/
theorem fork_write_log_replays : ∃ execution report,
    execute 4 "FORK." ⟨[]⟩ twoSteps = some execution ∧
      execution.log.toList = [.forked 0 1 2, .wrote 0 1] ∧ execution.report? = some report ∧
      report.Replays 8 [.forked 0 1 2, .wrote 0 1] := by
  have loads : (Program.load "FORK." .keyword).isOk = true := by decide +kernel
  have logged : (execute 4 "FORK." ⟨[]⟩ twoSteps).map (fun execution => execution.log.toList) =
      some [.forked 0 1 2, .wrote 0 1] := by decide +kernel
  obtain ⟨execution, returned, log⟩ := Option.map_eq_some_iff.mp logged
  cases loaded : Program.load "FORK." .keyword with
  | error error => simp [loaded, Except.isOk, Except.toBool] at loads
  | ok program =>
      obtain ⟨report, found, replays⟩ := log_replays loaded returned
      exact ⟨execution, report, returned, log, found, log ▸ replays⟩

end ForkTape
