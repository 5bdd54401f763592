import ForkTape.Pool.Round
import ForkTape.Proofs.Machine.Exec

/-!
# What a turn can do

`Turned` lists the ways in which a turn of a machine in a round can end, and `Resolved` those in
which a `fork` is resolved. Both are written with a few operations on rounds, each of which says
where a machine goes, so what a turn does to all machines together is read off case by case.
-/

namespace ForkTape.Pool

namespace Round

/-- Put a machine that has had its turn among those visited. -/
def visit (machine : Machine) (round : Round) : Round :=
  { round with visited := machine :: round.visited }

/-- Put a machine in front of those waiting. -/
def putBack (machine : Machine) (round : Round) : Round :=
  { round with waiting := machine :: round.waiting }

/-- Put a machine among those born in the round. -/
def bear (machine : Machine) (round : Round) : Round :=
  { round with born := machine :: round.born }

/-- Change the ledger. -/
def book (change : Ledger → Ledger) (round : Round) : Round :=
  { round with ledger := change round.ledger }

/-- Mark that a machine has had a turn without a fault. -/
def progress (round : Round) : Round :=
  { round with progressed := true }

/-- How many machines the registry holds besides the one whose turn it is. -/
def others (round : Round) : Nat :=
  round.visited.length + round.waiting.length + round.born.length

/-- The round that a turn leaves, whether it ended in a fault or not. -/
def left : Except (Fault × Round) Round → Round
  | .ok round => round
  | .error (_, round) => round

end Round

namespace Ledger

@[simp] theorem retired_recordAny (event? : Option Event) (ledger : Ledger) :
    (ledger.recordAny event?).retired = ledger.retired := by
  cases event? <;> rfl

@[simp] theorem refusals_recordAny (event? : Option Event) (ledger : Ledger) :
    (ledger.recordAny event?).refusals = ledger.refusals := by
  cases event? <;> rfl

@[simp] theorem globalSteps_recordAny (event? : Option Event) (ledger : Ledger) :
    (ledger.recordAny event?).globalSteps = ledger.globalSteps := by
  cases event? <;> rfl

/-- Give away the next id to a child of `parent`, after which `live` machines run. -/
def bookFork (parent live : Nat) (ledger : Ledger) : Ledger :=
  { ledger with nextId := ledger.nextId + 1 }.record (.forked parent ledger.nextId live)

/-- Record that a `fork` was refused. -/
def bookRefusal (refusal : Refusal) (ledger : Ledger) : Ledger :=
  { ledger with refusals := ledger.refusals.push refusal }.record
    (.forkRefused refusal.machine refusal.live refusal.budget)

end Ledger

namespace Round

/-- The ways in which the `fork` that `machine` stands on can be resolved. Halted machines have
left the registry of `round` already. -/
inductive Resolved (config : Config) (machine : Machine) (round : Round) : Round → Prop
  | forked (room : round.others + 1 < config.maxLive) :
      Resolved config machine round
        (((round.book (·.bookFork machine.id (round.others + 2))).bear
          (machine.fork round.ledger.nextId config.inputSplit).2).visit
          (machine.fork round.ledger.nextId config.inputSplit).1)
  | refused (full : config.maxLive ≤ round.others + 1) :
      Resolved config machine round
        ((round.book (·.bookRefusal ⟨machine.id, machine.ip, round.others + 1,
          config.maxLive⟩)).visit machine.passFork)

/-- Resolving a `fork` ends in one of the listed ways. -/
theorem resolved (config : Config) (machine : Machine) (round : Round) :
    Resolved config machine round.retireHalted (resolveFork config machine round) := by
  unfold resolveFork
  by_cases room : round.retireHalted.others + 1 < config.maxLive
  · have forked : Resolved config machine round.retireHalted _ := .forked room
    rcases machine with ⟨id, parent, children, tape, ip, input, output, halted, steps⟩
    simp only [others] at room
    simp only [room, if_true]
    exact forked
  · have refused : Resolved config machine round.retireHalted _ :=
      .refused (Nat.le_of_not_lt room)
    simp only [others] at room
    simp only [room, if_false]
    exact refused

/-- The ways in which the turn of a machine can end. The round is given without the machine. -/
inductive Turned (program : Program) (config : Config) (machine : Machine) (round : Round) :
    Except (Fault × Round) Round → Prop
  /-- A halted machine has no turn. -/
  | rested (halted : machine.halted = true) :
      Turned program config machine round (.ok (round.visit machine))
  /-- The global limit stops the round before the machine executes an instruction. -/
  | stopped {limit : Nat} (live : machine.halted = false) (pending : machine.ip < program.size)
      (reached : config.maxGlobalSteps.reached? round.ledger.globalSteps = some limit) :
      Turned program config machine round
        (.error (.globalStepLimit limit, round.putBack machine))
  /-- The machine faults. -/
  | faulted {next : Machine} {fault : Fault} {event? : Option Event}
      (live : machine.halted = false)
      (admitted : machine.ip < program.size →
        config.maxGlobalSteps.reached? round.ledger.globalSteps = none)
      (executed : machine.exec program config.machine = ⟨next, .error fault, event?⟩) :
      Turned program config machine round
        (.error (fault, (round.book (·.recordAny event?)).putBack next))
  /-- The machine executes an instruction. -/
  | advanced {next : Machine} {event? : Option Event} (live : machine.halted = false)
      (admitted : machine.ip < program.size →
        config.maxGlobalSteps.reached? round.ledger.globalSteps = none)
      (executed : machine.exec program config.machine = ⟨next, .ok .advanced, event?⟩) :
      Turned program config machine round
        (.ok ((round.book (·.recordAny event? |>.countStep)).progress.visit next))
  /-- The machine halts. -/
  | halted {next : Machine} {event? : Option Event} (live : machine.halted = false)
      (admitted : machine.ip < program.size →
        config.maxGlobalSteps.reached? round.ledger.globalSteps = none)
      (executed : machine.exec program config.machine = ⟨next, .ok .halted, event?⟩) :
      Turned program config machine round
        (.ok ((round.book (·.recordAny event? |>.record
          (.halted next.id next.steps))).progress.visit next))
  /-- The machine comes to a `fork`, which is resolved. -/
  | atFork {next : Machine} {event? : Option Event} {after : Round}
      (live : machine.halted = false)
      (admitted : machine.ip < program.size →
        config.maxGlobalSteps.reached? round.ledger.globalSteps = none)
      (executed : machine.exec program config.machine = ⟨next, .ok .atFork, event?⟩)
      (resolved : Resolved config next
        (round.book (·.recordAny event? |>.countStep)).progress.retireHalted after) :
      Turned program config machine round (.ok after)

/-- The turn of a machine ends in one of the listed ways. -/
theorem turned (program : Program) (config : Config) (machine : Machine) (round : Round) :
    Turned program config machine round (turn program config machine round) := by
  unfold turn
  by_cases halted : machine.halted = true
  · simp only [halted, if_true]
    exact .rested halted
  · have live : machine.halted = false := Bool.eq_false_iff.mpr halted
    simp only [live, Bool.false_eq_true, if_false]
    cases limited : (if machine.ip < program.size then
        config.maxGlobalSteps.reached? round.ledger.globalSteps else none) with
    | some limit =>
        by_cases pending : machine.ip < program.size
        · rw [if_pos pending] at limited
          exact .stopped live pending limited
        · simp [pending] at limited
    | none =>
        have admitted : machine.ip < program.size →
            config.maxGlobalSteps.reached? round.ledger.globalSteps = none := by
          intro pending
          rwa [if_pos pending] at limited
        rcases executed : machine.exec program config.machine with ⟨next, outcome, event?⟩
        cases outcome with
        | error fault => exact .faulted live admitted executed
        | ok progress =>
            cases progress with
            | advanced => exact .advanced live admitted executed
            | halted => exact .halted live admitted executed
            | atFork =>
                exact .atFork live admitted executed
                  (resolved config next (round.book (·.recordAny event? |>.countStep)).progress)

/-! ## What a turn counts -/

variable {program : Program} {config : Config} {machine : Machine} {round : Round}

theorem Resolved.globalSteps_eq {after : Round} (resolved : Resolved config machine round after) :
    after.ledger.globalSteps = round.ledger.globalSteps := by
  cases resolved <;> rfl

/-- Only a machine with an instruction to execute can end a round. -/
theorem Turned.pending_of_error {aborted : Fault × Round}
    (turned : Turned program config machine round (.error aborted)) :
    machine.pending program = true := by
  cases turned with
  | stopped live pending reached => simp [Machine.pending, live, pending]
  | faulted live admitted executed =>
      exact (Machine.executes_of_exec executed).pending_iff.mpr (by simp)

/-- The turns that execute an instruction and do not fault are counted, and no others. -/
theorem Turned.globalSteps_eq {result : Except (Fault × Round) Round}
    (turned : Turned program config machine round result) :
    (left result).ledger.globalSteps =
      round.ledger.globalSteps + if result.isOk && machine.pending program then 1 else 0 := by
  cases turned with
  | rested halted => simp [left, visit, Except.isOk, Except.toBool, Machine.pending, halted]
  | stopped live pending reached => rfl
  | faulted live admitted executed =>
      simp [left, putBack, book, Except.isOk, Except.toBool]
  | advanced live admitted executed =>
      have pending := (Machine.executes_of_exec executed).pending_iff.mpr (by simp)
      simp [left, visit, progress, book, Ledger.countStep, Except.isOk, Except.toBool, pending]
  | halted live admitted executed =>
      have idle : machine.pending program = false := Bool.eq_false_iff.mpr fun pending =>
        (Machine.executes_of_exec executed).pending_iff.mp pending rfl
      simp [left, visit, progress, book, Ledger.record, Except.isOk, Except.toBool, idle]
  | atFork live admitted executed resolved =>
      have pending := (Machine.executes_of_exec executed).pending_iff.mpr (by simp)
      simp only [left, resolved.globalSteps_eq, Except.isOk, Except.toBool, pending]
      simp [retireHalted, Ledger.retire, progress, book, Ledger.countStep]

end Round

end ForkTape.Pool
