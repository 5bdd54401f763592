import ForkTape.Pool

/-!
# Rounds and runs

A pool runs round after round until every machine has halted or a round ends in a fault.

In a round every machine that is registered when it begins takes one turn, in the order of
ids. Machines forked off during the round wait for the next one. A machine that has halted has
no turn.

A round under way is the pool taken apart: the machines visited already, those waiting, and
those born in this round. A fault ends the round at once. Then every machine stays registered
where it is, and so do those that have halted (`Round.toPool`).
-/

namespace ForkTape.Pool

/-- A round under way. -/
structure Round where
  /-- The machines that have had their turn, the latest first. -/
  visited : List Machine
  /-- The machines that have not, in the order of their turns. -/
  waiting : List Machine
  /-- The machines forked off in this round, the latest first. -/
  born : List Machine
  ledger : Ledger
  /-- Whether some machine has had a turn without a fault. -/
  progressed : Bool
  deriving DecidableEq, Repr

namespace Round

/-- The beginning of a round. -/
def start (pool : Pool) : Round :=
  ⟨[], pool.registered, [], pool.ledger, false⟩

/-- The pool as it stands in the middle of a round. -/
def toPool (round : Round) : Pool where
  registered := round.visited.reverse ++ round.waiting ++ round.born.reverse
  ledger := round.ledger

/-- Take halted machines out of the registry. -/
def retireHalted : Round → Round
  | ⟨visited, waiting, born, ledger, progressed⟩ =>
      let live := fun machine : Machine => !machine.halted
      let gone := visited.filter Machine.halted ++ waiting.filter Machine.halted
        ++ born.filter Machine.halted
      ⟨visited.filter live, waiting.filter live, born.filter live, ledger.retire gone,
        progressed⟩

/-- Resolve the `fork` that `machine` stands on, during its turn. Halted machines are retired
first, so they do not count against the budget. Within the budget the machine forks; beyond it
the refusal is recorded and the machine moves on. -/
def resolveFork (config : Config) (machine : Machine) (round : Round) : Round :=
  match round.retireHalted with
  | ⟨visited, waiting, born, ledger, progressed⟩ =>
      let live := visited.length + waiting.length + born.length + 1
      if live < config.maxLive then
        let child := ledger.nextId
        let (parent, newborn) := machine.fork child config.inputSplit
        let ledger := { ledger with nextId := child + 1 }.record
          (.forked parent.id child (live + 1))
        ⟨parent :: visited, waiting, newborn :: born, ledger, progressed⟩
      else
        let refusal : Refusal := ⟨machine.id, machine.ip, live, config.maxLive⟩
        let ledger := { ledger with refusals := ledger.refusals.push refusal }.record
          (.forkRefused machine.id live config.maxLive)
        ⟨machine.passFork :: visited, waiting, born, ledger, progressed⟩

/-- Let `machine`, which has just been taken from those waiting, have its turn. A machine with
an instruction to execute must not do so once the global limit is reached; halting is free. -/
def turn (program : Program) (config : Config) (machine : Machine) :
    Round → Except (Fault × Round) Round
  | ⟨visited, waiting, born, ledger, progressed⟩ =>
      if machine.halted then .ok ⟨machine :: visited, waiting, born, ledger, progressed⟩
      else
        let limit? :=
          if machine.ip < program.size then config.maxGlobalSteps.reached? ledger.globalSteps
          else none
        match limit? with
        | some limit =>
            .error (.globalStepLimit limit, ⟨visited, machine :: waiting, born, ledger, progressed⟩)
        | none =>
            match machine.exec program config.machine with
            | ⟨machine, outcome, event?⟩ =>
                let ledger := ledger.recordAny event?
                match outcome with
                | .ok .advanced =>
                    .ok ⟨machine :: visited, waiting, born, ledger.countStep, true⟩
                | .ok .halted =>
                    let ledger := ledger.record (.halted machine.id machine.steps)
                    .ok ⟨machine :: visited, waiting, born, ledger, true⟩
                | .ok .atFork =>
                    let round := ⟨visited, waiting, born, ledger.countStep, true⟩
                    .ok (resolveFork config machine round)
                | .error fault =>
                    .error (fault, ⟨visited, machine :: waiting, born, ledger, progressed⟩)

/-- Let up to `count` of the waiting machines have their turns. -/
def turns (program : Program) (config : Config) : Nat → Round → Except (Fault × Round) Round
  | 0, round => .ok round
  | count + 1, ⟨visited, waiting, born, ledger, progressed⟩ =>
      match waiting with
      | [] => .ok ⟨visited, [], born, ledger, progressed⟩
      | machine :: waiting =>
          match turn program config machine ⟨visited, waiting, born, ledger, progressed⟩ with
          | .ok round => turns program config count round
          | .error aborted => .error aborted

end Round

/-- Play one round. It tells whether any machine had a turn. Halted machines are retired at the
end of a round without a fault. -/
def sweep (program : Program) (config : Config) (pool : Pool) : Pool × Except Fault Bool :=
  let count := pool.registered.length
  match (Round.start pool).turns program config count with
  | .ok round => (round.toPool.retireHalted, .ok round.progressed)
  | .error (fault, round) => (round.toPool, .error fault)

/-! ## Runs -/

/-- One turn of a run: the pool after another round, or the end of the run. -/
def runTurn (program : Program) (config : Config) (pool : Pool) :
    Pool ⊕ (Pool × Except Fault Unit) :=
  if pool.isDone then .inr (pool, .ok ())
  else
    match pool.sweep program config with
    | (pool, .ok true) => .inl pool
    | (pool, .ok false) => .inr (pool, .ok ())
    | (pool, .error fault) => .inr (pool, .error fault)

/-- Run until every machine has halted or a fault occurs, for at most `fuel` turns. The report
of the pool that is left tells what the run has produced. -/
def run (program : Program) (config : Config) (fuel : Nat) (pool : Pool) :
    Option (Pool × Except Fault Unit) :=
  iterate (runTurn program config) fuel pool

end ForkTape.Pool
