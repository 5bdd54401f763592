import ForkTape.Proofs.Pool.Members
import ForkTape.Proofs.Pool.Moves

/-!
# What a turn makes of a machine

A turn puts other machines in the place of the one that has it and leaves all others as they are.
Mostly there is one of them, the same machine after its turn; when the machine forks there are
two. `Heirs` lists what they can be, each with the conditions under which it comes to that, from
the side of the machine alone: it takes together what a turn of a round can do (`Round.Turned`)
and what executing an instruction can do (`Machine.Executes`).
-/

namespace ForkTape.Pool

open Machine (perform)

/-- The machines that a turn puts in the place of `machine`, by the fault in which the turn ended.
A machine that is forked off gets the id `child`. -/
inductive Heirs (program : Program) (config : Config) (machine : Machine) (child : Nat) :
    Option Fault → List Machine → Prop
  /-- A halted machine has no turn. -/
  | rested (halted : machine.halted = true) : Heirs program config machine child none [machine]
  /-- The global limit stops the round before the machine executes an instruction. -/
  | stopped {limit : Nat} (pending : machine.pending program = true) :
      Heirs program config machine child (some (.globalStepLimit limit)) [machine]
  /-- The machine has reached its own limit. -/
  | limited {limit : Nat} (pending : machine.pending program = true)
      (reached : config.machine.maxSteps.reached? machine.steps = some limit) :
      Heirs program config machine child (some (.stepLimit machine.id limit)) [machine]
  /-- The machine moves past its last cell. -/
  | rejected {capacity : Nat} (live : machine.halted = false)
      (found : program.instruction? machine.ip = some .right)
      (admitted : config.machine.maxSteps.reached? machine.steps = none) :
      Heirs program config machine child (some (.tapeOverflow machine.id capacity))
        [machine.count]
  /-- The machine halts. -/
  | ended (live : machine.halted = false) (missing : program.instruction? machine.ip = none) :
      Heirs program config machine child none [machine.halt]
  /-- The machine executes an instruction other than a `fork`. -/
  | advanced {instruction : Instruction} {next : Machine} {event? : Option Event}
      (live : machine.halted = false)
      (found : program.instruction? machine.ip = some instruction)
      (plain : instruction ≠ .fork)
      (admitted : config.machine.maxSteps.reached? machine.steps = none)
      (performed : perform program config.machine.overflow instruction machine.count =
        ⟨next, .ok .advanced, event?⟩) :
      Heirs program config machine child none [next]
  /-- The machine executes a `fork`, which is refused. -/
  | refused (live : machine.halted = false)
      (found : program.instruction? machine.ip = some .fork)
      (admitted : config.machine.maxSteps.reached? machine.steps = none) :
      Heirs program config machine child none [machine.count.passFork]
  /-- The machine executes a `fork`, which is carried out. -/
  | forked (live : machine.halted = false)
      (found : program.instruction? machine.ip = some .fork)
      (admitted : config.machine.maxSteps.reached? machine.steps = none) :
      Heirs program config machine child none
        [(machine.count.fork child config.inputSplit).1,
          (machine.count.fork child config.inputSplit).2]

namespace Round

variable {program : Program} {config : Config} {machine : Machine} {round : Round}

/-- The fault in which a turn ended. -/
def fault? : Except (Fault × Round) Round → Option Fault
  | .ok _ => none
  | .error (fault, _) => some fault

theorem isNone_fault? (result : Except (Fault × Round) Round) :
    (fault? result).isNone = result.isOk := by
  cases result <;> rfl

/-- What a turn leaves: heirs in the place of the machine, all other machines as they were, and a
next id that has gone up by one for every heir but the first. -/
structure Leaves (program : Program) (config : Config) (machine : Machine) (round : Round)
    (result : Except (Fault × Round) Round) (heirs : List Machine) : Prop where
  become : Heirs program config machine round.ledger.nextId (fault? result) heirs
  members : (left result).members.Perm (heirs ++ round.members)
  nextId : (left result).ledger.nextId + 1 = round.ledger.nextId + heirs.length

/-- What holds of all machines after a turn, when the machine that had it passes it on to its heirs
and all others keep it. -/
theorem Leaves.forall_members {result : Except (Fault × Round) Round} {heirs : List Machine}
    {holds later : Machine → Prop} (leaves : Leaves program config machine round result heirs)
    (before : ∀ other ∈ (round.putBack machine).toPool.members, holds other)
    (passed : holds machine → ∀ heir ∈ heirs, later heir)
    (kept : ∀ other, holds other → later other) :
    ∀ other ∈ (left result).toPool.members, later other := by
  have putBack := members_toPool_putBack machine round
  intro other otherMem
  rw [(members_toPool _).mem_iff, leaves.members.mem_iff, List.mem_append] at otherMem
  rcases otherMem with heirMem | otherMem
  · exact passed (before machine (putBack.mem_iff.mpr List.mem_cons_self)) other heirMem
  · exact kept other (before other (putBack.mem_iff.mpr (List.mem_cons_of_mem _ otherMem)))

/-- The machines that the resolving of a `fork` leaves. -/
theorem Resolved.leaves {after : Round} (live : machine.halted = false)
    (found : program.instruction? machine.ip = some .fork)
    (admitted : config.machine.maxSteps.reached? machine.steps = none)
    (resolved : Resolved config machine.count round after) :
    ∃ heirs, Leaves program config machine round (.ok after) heirs := by
  cases resolved with
  | forked room =>
      exact ⟨_, .forked live found admitted, members_visit_bear_book rfl _ _, rfl⟩
  | refused full =>
      exact ⟨_, .refused live found admitted, members_visit_book rfl _, rfl⟩

/-- What a turn leaves in the place of the machine that had it. -/
theorem Turned.leaves {result : Except (Fault × Round) Round}
    (turned : Turned program config machine round result) :
    ∃ heirs, Leaves program config machine round result heirs := by
  cases turned with
  | rested halted => exact ⟨_, .rested halted, members_visit _ _, rfl⟩
  | stopped live pending reached =>
      have pending : machine.pending program = true := by simp [Machine.pending, live, pending]
      exact ⟨_, .stopped pending, members_putBack _ _, rfl⟩
  | @faulted next fault event? live admitted executed =>
      cases Machine.executes_of_exec executed with
      | limited live found reached =>
          have pending : machine.pending program = true := by
            simp [Machine.pending, live, program.lt_size_of_instruction? found]
          exact ⟨_, .limited pending reached, members_putBack _ _, rfl⟩
      | rejected live found admitted last =>
          exact ⟨_, .rejected live found admitted, members_putBack _ _, rfl⟩
  | @advanced next event? live admitted executed =>
      cases Machine.executes_of_exec executed with
      | advanced live found plain admitted performed =>
          refine ⟨_, .advanced live found plain admitted performed, ?_, ?_⟩
          · exact members_visit_book (Ledger.retired_recordAny _ _) next
          · cases event? <;> rfl
  | halted live admitted executed =>
      cases Machine.executes_of_exec executed with
      | rested halted => exact absurd halted (Bool.eq_false_iff.mp live)
      | ended live missing =>
          exact ⟨_, .ended live missing, members_visit_book rfl _, rfl⟩
  | atFork live admitted executed resolved =>
      cases Machine.executes_of_exec executed with
      | reachedFork live found admitted =>
          obtain ⟨heirs, become, members, nextId⟩ := resolved.leaves live found admitted
          exact ⟨heirs, become, members.trans ((members_retireHalted _).append_left heirs), nextId⟩

end Round

namespace Move

variable {program : Program} {config : Config} {machine : Machine} {round : Round}

/-- A turn that ends in a fault executes no instruction. -/
theorem executed?_eq_none {fault : Fault}
    (ended : Round.fault? (round.turn program config machine) = some fault) :
    executed? program config ⟨machine, round⟩ = none := by
  have faulted : (round.turn program config machine).isOk = false := by
    rw [← Round.isNone_fault?, ended]
    rfl
  simp [executed?, result, faulted]

/-- A turn that does not end in a fault executes what a live machine has come to. -/
theorem executed?_eq_instruction?
    (ended : Round.fault? (round.turn program config machine) = none)
    (live : machine.halted = false) :
    executed? program config ⟨machine, round⟩ = program.instruction? machine.ip := by
  have finished : (round.turn program config machine).isOk = true := by
    rw [← Round.isNone_fault?, ended]
    rfl
  simp [executed?, result, finished, live]

/-- Only a machine that has come to a `fork` executes one. -/
theorem executed?_ne_fork
    (elsewhere : (machine.exec program config.machine).outcome ≠ .ok .atFork) :
    executed? program config ⟨machine, round⟩ ≠ some .fork := by
  intro forks
  rw [executed?, result] at forks
  have turned := Round.turned program config machine round
  generalize round.turn program config machine = outcome at turned forks
  cases turned with
  | rested halted => simp [halted] at forks
  | stopped live pending reached => cases forks
  | faulted live admitted executed => cases forks
  | advanced live admitted executed =>
      cases Machine.executes_of_exec executed with
      | advanced live found plain admitted performed =>
          simp [Except.isOk, Except.toBool, live, found, plain] at forks
  | halted live admitted executed =>
      cases Machine.executes_of_exec executed with
      | rested halted => simp [halted] at forks
      | ended live missing => simp [missing] at forks
  | atFork live admitted executed resolved =>
      rw [executed] at elsewhere
      exact elsewhere rfl

/-- Nobody is forked off where the next id stays. -/
theorem child?_eq_none
    (same : (Round.left (round.turn program config machine)).ledger.nextId + 1 =
      round.ledger.nextId + 1) : child? program config ⟨machine, round⟩ = none :=
  if_pos (Nat.succ.inj same)

/-- The machine that is forked off gets the next id. -/
theorem child?_eq_some
    (grown : (Round.left (round.turn program config machine)).ledger.nextId + 1 =
      round.ledger.nextId + 2) :
    child? program config ⟨machine, round⟩ = some round.ledger.nextId := by
  apply if_neg
  simp only [result]
  omega

/-- Whoever is forked off in a turn comes from a `fork` of the program. -/
theorem found_of_child? {move : Move} {child : Nat}
    (forks : move.child? program config = some child) :
    program.instruction? move.machine.ip = some .fork := by
  rcases move with ⟨machine, round⟩
  obtain ⟨heirs, become, _, nextId⟩ := (Round.turned program config machine round).leaves
  generalize Round.fault? _ = fault? at become
  cases become with
  | forked live found admitted => exact found
  | _ =>
      rw [child?_eq_none nextId] at forks
      contradiction

end Move

end ForkTape.Pool
