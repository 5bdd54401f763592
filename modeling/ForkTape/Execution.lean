import ForkTape.Machine
import ForkTape.Pool.Round

/-!
# Executing source text

To execute a source text is to load it and to run the program it spells, either in a pool,
where machines may fork, or on one machine alone, which passes every `fork`. A run that a fault
ends still has a report of what it has produced.
-/

namespace ForkTape

/-- Why an execution has not come to a regular end. -/
inductive Failure
  /-- The brackets of the source text do not pair up, so nothing was run. -/
  | malformed (error : BracketError)
  /-- A fault ended the run, which had produced `report`. -/
  | aborted (fault : Fault) (report : Report)
  deriving DecidableEq, Repr

namespace Failure

/-- The text of a failure is that of its cause. -/
def message : Failure → String
  | malformed error => error.message
  | aborted fault _ => fault.message

/-- What had been produced before the failure. -/
def report? : Failure → Option Report
  | malformed _ => none
  | aborted _ report => some report

end Failure

/-- How a source text is executed. -/
structure Settings where
  spelling : ForkSpelling := .keyword
  pool : Pool.Config := {}
  deriving DecidableEq, Repr, Inhabited

/-- What an execution leaves: its answer, or why there is none, and the log. -/
structure Execution (α : Type) where
  answer : Except Failure α
  log : Array Event

namespace Execution

/-- The execution of a program in a pool. -/
def ofProgram (fuel : Nat) (program : Program) (input : Input) (config : Pool.Config) :
    Option (Execution Report) :=
  ((Pool.initial config input).run program config fuel).map fun (pool, outcome) =>
    match outcome with
    | .ok () => ⟨.ok pool.report, pool.ledger.log⟩
    | .error fault => ⟨.error (.aborted fault pool.report), pool.ledger.log⟩

/-- The report of one machine that ran alone: it refuses nothing, and its steps are all there
are. -/
def soloReport (result : Machine.Result) : Report where
  results := [result]
  refusals := []
  totalSteps := result.steps

/-- The execution of a program on one machine alone. -/
def ofProgramAlone (fuel : Nat) (program : Program) (input : Input) (config : Machine.Config) :
    Option (Execution Machine.Result) :=
  ((Machine.initial config input).run program config fuel).map fun run =>
    match run.outcome with
    | .ok () => ⟨.ok run.machine.result, run.log⟩
    | .error fault => ⟨.error (.aborted fault (soloReport run.machine.result)), run.log⟩

end Execution

/-- Execute a source text in a pool, for at most `fuel` rounds. -/
def execute (fuel : Nat) (source : String) (input : Input) (settings : Settings) :
    Option (Execution Report) :=
  match Program.load source settings.spelling with
  | .ok program => Execution.ofProgram fuel program input settings.pool
  | .error error => some ⟨.error (.malformed error), #[]⟩

/-- Execute a source text on one machine alone, for at most `fuel` instructions. -/
def executeAlone (fuel : Nat) (source : String) (input : Input) (settings : Settings) :
    Option (Execution Machine.Result) :=
  match Program.load source settings.spelling with
  | .ok program => Execution.ofProgramAlone fuel program input settings.pool.machine
  | .error error => some ⟨.error (.malformed error), #[]⟩

end ForkTape
