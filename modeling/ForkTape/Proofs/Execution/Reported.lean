import ForkTape.Proofs.Execution
import ForkTape.Proofs.Execution.Replay
import ForkTape.Proofs.Pool.Usage
import ForkTape.Proofs.Program.Loading
import ForkTape.Report.Text

/-!
# What an execution reports

The report of an execution that has come to a regular end fits the binary form when its counts are
in range, whether the program was executed in a pool or alone (`concludes_of_ofProgram`,
`concludes_of_ofProgramAlone`). Alone the machine does what it would do in a pool with room for one,
and so the second follows from the first.

A machine that has stayed alone has no parent and no children. All that is printed for it is its
output, whatever forks the report says were refused (`Report.printed_of_single`).
-/

namespace ForkTape

/-! ## The size of a program -/

theorem Source.length_occurrences_le (spelling : ForkSpelling) (offset : Nat)
    (text : List Char) : (occurrences spelling offset text).length ≤ text.length := by
  induction text generalizing offset with
  | nil => exact Nat.le_refl _
  | cons char rest ih =>
      have within := ih (offset + char.utf8Size)
      rw [occurrences, List.length_append, List.length_cons]
      cases spelling.instruction? (char :: rest) <;> simp <;> omega

/-- A text spells no more instructions than it has characters. -/
theorem Program.size_le_of_load {source : String} {spelling : ForkSpelling} {program : Program}
    (loaded : Program.load source spelling = .ok program) : program.size ≤ source.length := by
  have within := Source.length_occurrences_le spelling 0 source.toList
  rw [← Source.toList_instructions, Array.length_toList, String.length_toList] at within
  rwa [size, ← (map_instructions_of_load loaded).1, Array.size_map]

namespace Pool

variable {program : Program} {config : Config} {input : Input} {pool : Pool}

/-- A machine without others is no child and has none. -/
theorem kin_of_single (reachable : Reachable program config input pool)
    {result : Machine.Result} (single : pool.report.results = [result]) :
    result.parent = none ∧ result.children = [] := by
  obtain ⟨machine, machineMem, rfl⟩ := mem_results_iff.mp (single ▸ List.mem_singleton_self result)
  have tells := tells_of_reachable reachable
  have lineage := tells.lineage
  rw [← length_results tells, single, List.length_singleton] at lineage
  have kinMem : machine.kin ∈ pool.members.map Machine.kin := List.mem_map_of_mem machineMem
  have root {kin : Machine.Kin} (kinMem : kin ∈ pool.members.map Machine.kin) :
      kin.parent = none := by
    have first := lineage.id_lt kinMem
    rcases lineage.parents kin kinMem with ⟨_, root⟩ | ⟨parent, parent_lt, _⟩
    · exact root
    · omega
  refine ⟨root kinMem, List.eq_nil_iff_forall_not_mem.mpr fun id childMem => ?_⟩
  obtain ⟨child, childMem, _, isChild⟩ := (lineage.children machine.kin kinMem id).mp childMem
  rw [root childMem] at isChild
  contradiction

end Pool

/-- What is printed for a machine that shows no fork is its output. -/
theorem Report.printed_of_single {report : Report} {result : Machine.Result}
    (single : report.results = [result]) (parent : result.parent = none)
    (children : result.children = []) : report.printed = result.output := by
  have sole : report.soleOutput? = some result.output := by
    simp [soleOutput?, single, parent, children]
  rw [printed, sole]

namespace Execution

variable {program : Program} {input : Input} {fuel : Nat}

/-- How the execution of a program ends: with a report, which fits the binary form when its counts
are in range, or with a fault and the report of what had been produced. -/
inductive Concludes : Except Failure Report → Prop
  | finished {report : Report} (fits : report.InRange → report.Fits) : Concludes (.ok report)
  | aborted (fault : Fault) (report : Report) : Concludes (.error (.aborted fault report))

/-- How an execution in a pool ends. -/
theorem concludes_of_ofProgram {config : Pool.Config} {execution : Execution Report}
    (returned : ofProgram fuel program input config = some execution)
    (size : program.size < 2 ^ 64) (budget : config.maxLive < 2 ^ 64) :
    Concludes execution.answer := by
  rw [ofProgram, Option.map_eq_some_iff] at returned
  obtain ⟨⟨pool, outcome⟩, ran, rfl⟩ := returned
  cases outcome with
  | ok value => exact .finished fun inRange => Pool.report_fits_of_run ran inRange size budget
  | error fault => exact .aborted fault pool.report

/-- A pool in which one machine does what it would do alone. -/
def solitary (config : Machine.Config) : Pool.Config where
  maxLive := 1
  maxGlobalSteps := none
  machine := config

/-- What fits in the report of a pool fits in that of its only machine. -/
theorem soloReport_fits {report : Report} {result : Machine.Result}
    (results : report.results = [result]) (total : report.totalSteps = result.steps)
    (fits : report.InRange → report.Fits) (inRange : (soloReport result).InRange) :
    (soloReport result).Fits := by
  have totalSteps : report.totalSteps = (soloReport result).totalSteps := total
  have fits : report.Fits := by
    refine fits ⟨?_, totalSteps ▸ inRange.totalSteps⟩
    rw [results]
    exact inRange.machines
  have resultFits := fits.results
  rw [results] at resultFits
  refine ⟨resultFits, ?_, ?_, ?_, totalSteps ▸ fits.totalSteps⟩
  · rw [soloReport, List.length_singleton]
    decide
  · simp [soloReport]
  · simp [soloReport]

/-- The execution of a machine alone, with a report. -/
def withReport (alone : Execution Machine.Result) : Execution Report :=
  ⟨alone.answer.map soloReport, alone.log⟩

/-- How the execution of a machine alone ends. -/
theorem concludes_of_ofProgramAlone {config : Machine.Config} {alone : Execution Machine.Result}
    (returned : ofProgramAlone fuel program input config = some alone)
    (size : program.size < 2 ^ 64) : Concludes alone.withReport.answer := by
  have forkless : Pool.Forkless program (solitary config) := .inl (Nat.le_refl 1)
  obtain ⟨poolFuel, execution, pooled⟩ : ∃ poolFuel execution,
      ofProgram poolFuel program input (solitary config) = some execution :=
    (exists_ofProgram_iff forkless rfl).mpr ⟨fuel, alone, returned⟩
  have small : (solitary config).maxLive < 2 ^ 64 := Nat.one_lt_two_pow (by decide)
  have concludes := concludes_of_ofProgram pooled size small
  have agree := ofProgram_agree forkless rfl pooled returned
  rw [withReport]
  rw [ofProgramAlone, Option.map_eq_some_iff] at returned
  obtain ⟨run, _, rfl⟩ := returned
  cases ended : run.outcome with
  | error fault => exact .aborted fault (soloReport run.machine.result)
  | ok value =>
      rw [ended] at agree
      generalize execution.answer = answer at agree concludes
      cases agree with
      | finished results refusals totalSteps =>
          cases concludes with
          | finished fits => exact .finished (soloReport_fits results totalSteps fits)

/-! ## Reports of one machine -/

/-- Two executions end alike and print the same. One reports the refusals of the `fork`s at `sites`
and the other none, and the machine they report of is the same. -/
structure DifferInRefusals (budget : Nat) (sites : List Nat) (execution other : Execution Report) :
    Prop where
  ends : execution.answer.isOk = other.answer.isOk
  reports : ∃ report otherReport,
    execution.report? = some report ∧ other.report? = some otherReport ∧
      report.results = otherReport.results ∧ report.printed = otherReport.printed ∧
      report.refusals = Pool.refusalsAt budget sites ∧ otherReport.refusals = []

/-- Where no `fork` can be carried out, an execution in a pool differs from one alone in the
refusals that it reports, and not in what is printed. -/
theorem ofProgram_differInRefusals {config : Pool.Config}
    (forkless : Pool.Forkless program config) (unlimited : config.maxGlobalSteps = none)
    {aloneFuel : Nat} {execution : Execution Report} {alone : Execution Machine.Result}
    (returned : ofProgram fuel program input config = some execution)
    (returnedAlone : ofProgramAlone aloneFuel program input config.machine = some alone) :
    DifferInRefusals config.maxLive
      (Machine.forkSites program config.machine aloneFuel
        (Machine.initial config.machine input)) execution alone.withReport := by
  rw [ofProgram, Option.map_eq_some_iff] at returned
  rw [ofProgramAlone, Option.map_eq_some_iff] at returnedAlone
  obtain ⟨⟨pool, outcome⟩, ran, rfl⟩ := returned
  obtain ⟨run, ranAlone, rfl⟩ := returnedAlone
  obtain ⟨outcome_eq, machines, refusals, _⟩ := matches_of_run forkless unlimited ran ranAlone
  rw [Machine.passed_log_run ranAlone] at refusals
  have results : pool.report.results = [run.machine.result] := congrArg (List.map _) machines
  have printed : pool.report.printed = (soloReport run.machine.result).printed := by
    obtain ⟨parent, children⟩ := Pool.kin_of_single (.run .initial ran) results
    rw [Report.printed_of_single results parent children,
      Report.printed_of_single rfl parent children]
  rcases run with ⟨machine, aloneOutcome, log⟩
  obtain rfl : outcome = aloneOutcome := outcome_eq
  cases outcome <;> exact ⟨rfl, _, _, rfl, rfl, results, printed, refusals, rfl⟩

end Execution

end ForkTape
