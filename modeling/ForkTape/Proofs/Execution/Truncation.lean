import ForkTape.Proofs.Execution.Reported
import ForkTape.Proofs.Tape.Truncation

/-!
# Tapes in reports

A result shows what is kept of the tape of a machine, and the data pointer says which of the cells
shown is scanned. That cell is there in every report (`Report.Issued`), whether it is one of a pool,
taken after any rounds and runs, or of an execution, even if a fault has ended it.
-/

namespace ForkTape

/-- The reports there are: those of pools, and those of executions in a pool and alone. -/
inductive Report.Issued : Report → Prop
  | pool {program : Program} {config : Pool.Config} {input : Input} {pool : Pool}
      (reachable : Pool.Reachable program config input pool) : Issued pool.report
  | execution {fuel : Nat} {source : String} {input : Input} {settings : Settings}
      {execution : Execution Report} {report : Report}
      (returned : execute fuel source input settings = some execution)
      (told : execution.report? = some report) : Issued report
  | alone {fuel : Nat} {source : String} {input : Input} {settings : Settings}
      {alone : Execution Machine.Result} {report : Report}
      (returned : executeAlone fuel source input settings = some alone)
      (told : alone.withReport.report? = some report) : Issued report

namespace Execution

variable {fuel : Nat} {source : String} {input : Input} {settings : Settings} {report : Report}

/-- What an execution in a pool reports is the report of the pool that its run has left. -/
theorem exists_pool_of_report {execution : Execution Report}
    (returned : execute fuel source input settings = some execution)
    (told : execution.report? = some report) :
    ∃ pool : Pool, pool.report = report := by
  rw [execute] at returned
  cases loaded : Program.load source settings.spelling with
  | error error =>
      rw [loaded] at returned
      obtain rfl := Option.some.inj returned
      cases told
  | ok program =>
      rw [loaded] at returned
      obtain ⟨⟨pool, outcome⟩, _, rfl⟩ := Option.map_eq_some_iff.mp returned
      refine ⟨pool, ?_⟩
      cases outcome <;> exact Option.some.inj told

/-- What an execution alone reports is the result of its machine. -/
theorem exists_machine_of_report {alone : Execution Machine.Result}
    (returned : executeAlone fuel source input settings = some alone)
    (told : alone.withReport.report? = some report) :
    ∃ machine : Machine, report.results = [machine.result] := by
  rw [executeAlone] at returned
  cases loaded : Program.load source settings.spelling with
  | error error =>
      rw [loaded] at returned
      obtain rfl := Option.some.inj returned
      cases told
  | ok program =>
      rw [loaded] at returned
      obtain ⟨⟨machine, outcome, log⟩, _, rfl⟩ := Option.map_eq_some_iff.mp returned
      refine ⟨machine, ?_⟩
      cases outcome <;> exact congrArg Report.results (Option.some.inj told).symm

end Execution

/-- The results of a report are results of machines. -/
theorem Report.Issued.exists_machine {report : Report} (issued : report.Issued)
    {result : Machine.Result} (resultMem : result ∈ report.results) :
    ∃ machine : Machine, machine.result = result := by
  cases issued with
  | pool reachable =>
      obtain ⟨machine, _, same⟩ := Pool.mem_results_iff.mp resultMem
      exact ⟨machine, same⟩
  | execution returned told =>
      obtain ⟨pool, rfl⟩ := Execution.exists_pool_of_report returned told
      obtain ⟨machine, _, same⟩ := Pool.mem_results_iff.mp resultMem
      exact ⟨machine, same⟩
  | alone returned told =>
      obtain ⟨machine, results⟩ := Execution.exists_machine_of_report returned told
      rw [results, List.mem_singleton] at resultMem
      exact ⟨machine, resultMem.symm⟩

/-- What is kept of a tape is the shortest prefix of its cells in which nothing is lost, and its end
is found by index. A row of zeros that goes through operations, under whatever policies, fails
nowhere and is at the end that of the tape they have made. In every report the data pointer of a
result is the index of a cell that the result shows. -/
theorem truncation_lossless :
    (∀ tape : Tape, tape.Lossless tape.truncated ∧ tape.row.truncated? = some tape.truncated) ∧
    (∀ (capacity : Nat) (operations : List Tape.Operation),
      (Tape.Row.blank capacity).performAll? operations =
        some (Tape.ofOperations capacity operations).row) ∧
    ∀ report : Report, report.Issued →
      ∀ result ∈ report.results, result.dataPointer < result.tape.length := by
  refine ⟨fun tape => ⟨tape.lossless_truncated, tape.truncated?_row⟩,
    Tape.performAll?_blank, ?_⟩
  intro report issued result resultMem
  obtain ⟨machine, rfl⟩ := issued.exists_machine resultMem
  exact machine.tape.position_lt_length_truncated

/-- Two moves past the last of three cells, of which one is rejected and one clamped, and a third
for which the tape grows. -/
def growLast : List Tape.Operation :=
  [.right .reject, .inc, .right .reject, .right .reject, .right .clamp, .right .grow, .left]

/-- The scanned cell is the last that is kept where it is behind all that are not zero. In the
report of `>>+<<` it is before the only one of these. -/
theorem growLast_lossless :
    (Tape.ofOperations 3 growLast).Lossless [0, 1, 0] ∧
      (Tape.ofOperations 3 growLast).row.truncated? = some [0, 1, 0] ∧
      (Tape.Row.blank 3).performAll? growLast = some ⟨[0, 1, 0, 0], 2⟩ ∧
      ∃ execution report, execute 7 ">>+<<" ⟨[]⟩ {} = some execution ∧
        execution.report? = some report ∧ report.Issued ∧
        report.results = [⟨0, none, [], [], 0, [0, 0, 1], 5, true⟩] ∧
        0 < [0, 0, 1].length := by
  have told : ((execute 7 ">>+<<" ⟨[]⟩ {}).bind Execution.report?).map Report.results =
      some [⟨0, none, [], [], 0, [0, 0, 1], 5, true⟩] := by decide +kernel
  obtain ⟨report, reported, results⟩ := Option.map_eq_some_iff.mp told
  obtain ⟨execution, returned, isReport⟩ := Option.bind_eq_some_iff.mp reported
  have issued : report.Issued := .execution returned isReport
  obtain ⟨tapes, rows, inside⟩ := truncation_lossless
  have shown := inside report issued _ (results ▸ List.mem_singleton_self _)
  obtain ⟨lossless, byIndex⟩ := tapes (Tape.ofOperations 3 growLast)
  exact ⟨lossless, byIndex, rows 3 growLast, execution, report, returned, isReport, issued, results,
    shown⟩

end ForkTape
