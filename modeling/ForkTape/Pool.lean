import ForkTape.Report

/-!
# Pools of machines

A pool holds the machines of one run of a program. Machines that may still run are registered,
in the order of their ids. A machine that has halted leaves the registry for good when the pool
next retires its halted machines, and its state is kept for the report.

What the pool has counted and recorded so far is its ledger. The ledger goes on while a round of
turns is under way (see `ForkTape.Pool.Round`), so it is a type of its own.
-/

namespace ForkTape

namespace Pool

/-- How a pool is run. -/
structure Config where
  /-- How many machines may run at once. -/
  maxLive : Nat := 8
  /-- How many instructions all machines together may execute. -/
  maxGlobalSteps : Limit := some 10000000
  inputSplit : Input.Split := .halve
  machine : Machine.Config := {}
  deriving DecidableEq, Repr, Inhabited

/-- What a pool has counted and recorded. -/
structure Ledger where
  /-- The machines that have halted and left the registry. -/
  retired : Array Machine
  refusals : Array Refusal
  /-- The id of the next machine; every smaller one has been given away. -/
  nextId : Nat
  /-- How many instructions all machines together have executed. -/
  globalSteps : Nat
  log : Array Event
  deriving DecidableEq, Repr

namespace Ledger

/-- Add an event to the log. -/
def record (event : Event) (ledger : Ledger) : Ledger :=
  { ledger with log := ledger.log.push event }

/-- Add to the log the event that a turn caused, if it caused one. -/
def recordAny (event? : Option Event) (ledger : Ledger) : Ledger :=
  match event? with
  | some event => ledger.record event
  | none => ledger

/-- Count one executed instruction. -/
def countStep (ledger : Ledger) : Ledger :=
  { ledger with globalSteps := ledger.globalSteps + 1 }

/-- Keep machines that have left the registry. -/
def retire (machines : List Machine) (ledger : Ledger) : Ledger :=
  { ledger with retired := ledger.retired ++ machines }

end Ledger

end Pool

/-- The machines of one run. -/
structure Pool where
  /-- The machines that have not been retired, by ascending id. -/
  registered : List Machine
  ledger : Pool.Ledger
  deriving DecidableEq, Repr

namespace Pool

/-- The pool of the first machine, which owns all of the input. -/
def initial (config : Config) (input : Input) : Pool where
  registered := [Machine.initial config.machine input]
  ledger :=
    { retired := #[], refusals := #[], nextId := 1, globalSteps := 0, log := #[] }

/-- How many machines have not halted. -/
def liveCount (pool : Pool) : Nat :=
  pool.registered.countP fun machine => !machine.halted

/-- Whether every machine has halted. -/
def isDone (pool : Pool) : Bool :=
  pool.registered.all fun machine => machine.halted

/-- The registered machine with the given id. -/
def find? (pool : Pool) (id : Nat) : Option Machine :=
  pool.registered.find? fun machine => machine.id == id

/-- Take halted machines out of the registry. -/
def retireHalted (pool : Pool) : Pool :=
  { registered := pool.registered.filter fun machine => !machine.halted
    ledger := pool.ledger.retire (pool.registered.filter fun machine => machine.halted) }

/-- Every machine there has been, by ascending id. -/
def machines (pool : Pool) : List Machine :=
  (pool.ledger.retired.toList ++ pool.registered).mergeSort fun first second =>
    first.id ≤ second.id

/-- What the run has produced so far. -/
def report (pool : Pool) : Report where
  results := pool.machines.map Machine.result
  refusals := pool.ledger.refusals.toList
  totalSteps := pool.ledger.globalSteps

/-- The snapshots of the registered machines. -/
def snapshots (pool : Pool) (program : Program) : List Machine.Snapshot :=
  pool.registered.map fun machine => machine.snapshot program

end Pool

end ForkTape
