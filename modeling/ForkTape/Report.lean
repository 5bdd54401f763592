import ForkTape.Machine

/-!
# Reports

A report holds what a run has produced: a result for every machine, by ascending id, the forks
that were refused, in the order in which they were, and the number of instructions executed.
Reports are plain data and need neither the machines nor the program they tell of.
-/

namespace ForkTape

namespace Machine

/-- The state of one machine as reported: final when it has halted. -/
structure Result where
  id : Nat
  parent : Option Nat
  children : List Nat
  output : List UInt8
  dataPointer : Nat
  /-- The cells up to the data pointer or to the last that is not zero. -/
  tape : List UInt8
  steps : Nat
  halted : Bool
  deriving DecidableEq, Repr, Inhabited

/-- The state of one machine between two instructions. -/
structure Snapshot where
  id : Nat
  parent : Option Nat
  children : List Nat
  dataPointer : Nat
  instructionPointer : Nat
  /-- `none` behind the last instruction. -/
  currentInstruction : Option Instruction
  halted : Bool
  deriving DecidableEq, Repr, Inhabited

/-- The result of a machine. -/
def result (machine : Machine) : Result where
  id := machine.id
  parent := machine.parent
  children := machine.children.toList
  output := machine.output.toList
  dataPointer := machine.tape.position
  tape := machine.tape.truncated
  steps := machine.steps
  halted := machine.halted

/-- The snapshot of a machine that runs `program`. -/
def snapshot (machine : Machine) (program : Program) : Snapshot where
  id := machine.id
  parent := machine.parent
  children := machine.children.toList
  dataPointer := machine.tape.position
  instructionPointer := machine.ip
  currentInstruction := program.instruction? machine.ip
  halted := machine.halted

end Machine

/-- A fork that was refused, and why. -/
structure Refusal where
  machine : Nat
  /-- The index of the refused `fork`. -/
  instructionPointer : Nat
  live : Nat
  budget : Nat
  deriving DecidableEq, Repr, Inhabited

/-- What a run has produced. -/
structure Report where
  results : List Machine.Result
  refusals : List Refusal
  totalSteps : Nat
  deriving DecidableEq, Repr, Inhabited

namespace Report

/-- The first result of the machine with the given id. -/
def find? (report : Report) (id : Nat) : Option Machine.Result :=
  report.results.find? fun result => result.id == id

/-- Every machine with its parent: the shape of the fork tree. -/
def lineage (report : Report) : List (Nat × Option Nat) :=
  report.results.map fun result => (result.id, result.parent)

end Report

end ForkTape
