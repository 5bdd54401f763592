import ForkTape.Pool.Round
import ForkTape.Proofs.Machine.Solo
import ForkTape.Proofs.Pool.Turn

/-!
# Pools of one machine

Where no `fork` can be carried out, a pool never holds a second machine, and the machine it holds
does what it would do alone. A round is then one turn of that machine, so the two runs go on turn
by turn together (`keepsStep`). They differ in how they end: the pool needs one more turn to see
that its machine has halted, and it does not count the move past the last cell that ends a run,
which the machine does.
-/

namespace ForkTape.Pool

/-- No `fork` can be carried out, for want of room or for want of a `fork`. -/
def Forkless (program : Program) (config : Config) : Prop :=
  config.maxLive ≤ 1 ∨ Instruction.fork ∉ program.instructions

/-- The refusals of the first machine, running by itself, at the given instructions. -/
def refusalsAt (budget : Nat) (sites : List Nat) : List Refusal :=
  sites.map fun site => ⟨0, site, 1, budget⟩

/-- The pool holds the machine of a run alone, which has not halted, and no other. -/
structure Holds (config : Config) (state : Machine × Array Event) (pool : Pool) : Prop where
  registered : pool.registered = [state.1]
  retired : pool.ledger.retired = #[]
  globalSteps : pool.ledger.globalSteps = state.1.steps
  refusals : pool.ledger.refusals.toList = refusalsAt config.maxLive (Machine.passed state.2)
  first : state.1.id = 0
  live : state.1.halted = false

/-- How many instructions a pool counts of those that its only machine has counted, by how the
run has ended. -/
def Charges (total steps : Nat) : Except Fault Unit → Prop
  | .ok () => total = steps
  | .error (.stepLimit ..) => total = steps
  | .error (.tapeOverflow ..) => total + 1 = steps
  | .error _ => False

/-- What a run alone and a run of a pool leave when they have gone on together. -/
structure Matches (config : Config) (run : Machine.Run) (ending : Pool × Except Fault Unit) :
    Prop where
  outcome : ending.2 = run.outcome
  machines : ending.1.machines = [run.machine]
  refusals : ending.1.ledger.refusals.toList =
    refusalsAt config.maxLive (Machine.passed run.log)
  charges : Charges ending.1.ledger.globalSteps run.machine.steps run.outcome

/-- The round of a pool without its only machine, whose turn it is. -/
def bare (pool : Pool) : Round := ⟨[], [], [], pool.ledger, false⟩

section Turns

variable {program : Program} {config : Config} {machine next : Machine} {log : Array Event}
  {pool : Pool} {event? : Option Event}

/-- A round of a machine by itself is its turn. -/
theorem sweep_of_single (program : Program) (config : Config)
    (registered : pool.registered = [machine]) :
    pool.sweep program config =
      match Round.turn program config machine pool.bare with
      | .ok round => (round.toPool.retireHalted, .ok round.progressed)
      | .error (fault, round) => (round.toPool, .error fault) := by
  simp only [sweep, Round.start, registered, List.length_singleton, Round.turns, bare]
  cases Round.turn program config machine ⟨[], [], [], pool.ledger, false⟩ <;> rfl

theorem machines_of_single (single : pool.ledger.retired.toList ++ pool.registered = [machine]) :
    pool.machines = [machine] := by
  rw [machines, single, List.mergeSort_singleton]

theorem toPool_putBack_bare (pool : Pool) (change : Ledger → Ledger) (machine : Machine) :
    ((pool.bare.book change).putBack machine).toPool = ⟨[machine], change pool.ledger⟩ := by
  simp [Round.toPool, Round.putBack, Round.book, bare]

/-- A machine by itself that has not halted stays registered. -/
theorem retireHalted_visit_bare (pool : Pool) (change : Ledger → Ledger)
    (live : next.halted = false) :
    ((pool.bare.book change).progress.visit next).toPool.retireHalted =
      ⟨[next], (change pool.ledger).retire []⟩ := by
  simp [retireHalted, Round.toPool, Round.visit, Round.progress, Round.book, bare, live]

/-- A machine by itself that has halted leaves the registry empty. -/
theorem retireHalted_visit_bare_of_halted (change : Ledger → Ledger)
    (halted : next.halted = true) :
    ((pool.bare.book change).progress.visit next).toPool.retireHalted =
      ⟨[], (change pool.ledger).retire [next]⟩ := by
  simp [retireHalted, Round.toPool, Round.visit, Round.progress, Round.book, bare, halted]

/-- The pool still holds the machine after an instruction. -/
theorem Holds.advanced (held : Holds config (machine, log) pool)
    (executed : machine.exec program config.machine = ⟨next, .ok .advanced, event?⟩) :
    Holds config (next, Machine.logAny event? log)
      ((pool.bare.book (·.recordAny event? |>.countStep)).progress.visit
        next).toPool.retireHalted := by
  have executes := Machine.executes_of_exec executed
  obtain ⟨live, steps⟩ := executes.of_advanced
  rw [retireHalted_visit_bare pool _ live]
  constructor
  · rfl
  · simp [Ledger.countStep, Ledger.retire, held.retired]
  · simp [Ledger.countStep, Ledger.retire, held.globalSteps, steps]
  · rw [Machine.passed_logAny fun _ => executes.event_isEffect]
    simp [Ledger.countStep, Ledger.retire, held.refusals]
  · exact (congrArg Machine.Kin.id executes.kin_eq).trans held.first
  · exact live

/-- The pool still holds the machine after a `fork` that was refused. -/
theorem Holds.refused (forkless : Forkless program config)
    (held : Holds config (machine, log) pool) {after : Round}
    (executed : machine.exec program config.machine = ⟨next, .ok .atFork, event?⟩)
    (resolved : Round.Resolved config next
      (pool.bare.book (·.recordAny event? |>.countStep)).progress.retireHalted after) :
    after.progressed = true ∧
      Holds config (next.passFork, log.push (.forkIgnored next.id next.ip))
        after.toPool.retireHalted := by
  cases Machine.executes_of_exec executed with
  | reachedFork live found admitted =>
      cases resolved with
      | forked room =>
          rcases forkless with small | absent
          · exact absurd room (Nat.not_lt.mpr (Nat.le_trans small (Nat.le_add_left _ _)))
          · exact absurd (Array.mem_of_getElem? found) absent
      | refused full =>
          have booked := retireHalted_visit_bare pool
            (·.countStep.retire [] |>.bookRefusal
              ⟨machine.count.id, machine.count.ip, 1, config.maxLive⟩)
            (show machine.count.passFork.halted = false from live)
          have first : machine.count.id = 0 := held.first
          refine ⟨rfl, Eq.subst (motive := Holds config _) booked.symm ?_⟩
          constructor
          · rfl
          · simp [Ledger.bookRefusal, Ledger.record, Ledger.countStep, Ledger.retire,
              held.retired]
          · exact congrArg (· + 1) held.globalSteps
          · rw [Machine.passed_push]
            simp [Ledger.bookRefusal, Ledger.record, Ledger.countStep, Ledger.retire,
              held.refusals, refusalsAt, Machine.passedFork?, first]
          · exact first
          · exact live

/-- A fault ends both runs alike. -/
theorem Holds.faulted {fault : Fault} (held : Holds config (machine, log) pool)
    (executed : machine.exec program config.machine = ⟨next, .error fault, event?⟩) :
    Matches config ⟨next, .error fault, Machine.logAny event? log⟩
      (((pool.bare.book (·.recordAny event?)).putBack next).toPool, .error fault) := by
  have executes := Machine.executes_of_exec executed
  rw [toPool_putBack_bare]
  constructor
  · rfl
  · apply machines_of_single
    simp [held.retired]
  · rw [Machine.passed_logAny fun _ => executes.event_isEffect]
    simp [held.refusals]
  · simp only [Ledger.globalSteps_recordAny, held.globalSteps]
    cases executes with
    | limited live found reached => exact rfl
    | rejected live found admitted last => exact rfl

/-- Halting ends the run alone at once, and the run of the pool in its next turn. -/
theorem Holds.halted (held : Holds config (machine, log) pool)
    (executed : machine.exec program config.machine = ⟨next, .ok .halted, event?⟩) :
    ∃ after, ((pool.bare.book (·.recordAny event? |>.record
        (.halted next.id next.steps))).progress.visit next).toPool.retireHalted = after ∧
      after.isDone = true ∧
      Matches config ⟨next, .ok (), Machine.logAny event? log⟩ (after, .ok ()) := by
  cases Machine.executes_of_exec executed with
  | rested halted => exact absurd halted (Bool.eq_false_iff.mp held.live)
  | ended live missing =>
      refine ⟨_, retireHalted_visit_bare_of_halted _ rfl, rfl, rfl, machines_of_single ?_,
        held.refusals, held.globalSteps⟩
      simp [Ledger.record, Ledger.recordAny, Ledger.retire, held.retired]

end Turns

/-- A run alone and a run of the pool that holds the machine keep in step. -/
theorem keepsStep {program : Program} {config : Config} (forkless : Forkless program config)
    (unlimited : config.maxGlobalSteps = none) :
    KeepsStep (Machine.runTurn program config.machine) (runTurn program config) (Holds config)
      (Matches config) := by
  rintro ⟨machine, log⟩ pool held
  have live : machine.halted = false := held.live
  have undone : pool.isDone = false := by simpa [isDone, held.registered] using live
  have swept := sweep_of_single program config held.registered
  have turned := Round.turned program config machine pool.bare
  revert turned swept
  generalize Round.turn program config machine pool.bare = result
  intro swept turned
  cases turned with
  | rested halted => exact absurd halted (Bool.eq_false_iff.mp live)
  | stopped live pending reached => simp [unlimited, Limit.reached?_none] at reached
  | @faulted next fault event? live admitted executed =>
      right
      refine ⟨_, _, ?_, (answers_iff_of_turn_inr ?_ _).mpr rfl, held.faulted executed⟩
      · simp only [Machine.runTurn, Machine.step, executed]
        rfl
      · simp only [runTurn, undone, swept]
        rfl
  | @advanced next event? live admitted executed =>
      left
      refine ⟨_, _, ?_, ?_, held.advanced executed⟩
      · simp only [Machine.runTurn, Machine.step, executed]
        rfl
      · simp only [runTurn, undone, swept]
        rfl
  | @halted next event? live admitted executed =>
      obtain ⟨after, left, done, ending⟩ := held.halted executed
      have finds : runTurn program config after = .inr (after, .ok ()) := by
        rw [runTurn, if_pos done]
      right
      refine ⟨_, _, ?_, (answers_iff_of_turn_inl ?_ _).mpr
        ((answers_iff_of_turn_inr finds _).mpr rfl), ending⟩
      · simp only [Machine.runTurn, Machine.step, executed]
        rfl
      · simp only [runTurn, undone, swept, left]
        rfl
  | @atFork next event? after live admitted executed resolved =>
      obtain ⟨progressed, kept⟩ := held.refused forkless executed resolved
      left
      refine ⟨_, _, ?_, ?_, kept⟩
      · simp only [Machine.runTurn, Machine.step, executed]
      · simp only [runTurn, undone, swept, progressed]
        rfl

end ForkTape.Pool
