import ForkTape.Proofs.Pool.Heirs
import ForkTape.Proofs.Pool.History
import Mathlib.Algebra.GroupWithZero.Nat

/-!
# Counted instructions

Instructions are counted twice: by the machine that executes them, before it does, and by the
pool, after it has. The two counts part where an instruction is begun and not finished, and that
is a move past the last cell: the machine has counted it when it faults, and the pool never does.
So the counts of all machines together exceed that of the pool by one for every round that has
ended in such a move (`steps_accounted`).

Each count is held by its own limit, since both limits are tested before they are counted against.
-/

namespace ForkTape

/-- Whether the fault is a move past the last cell. -/
def Fault.isOverflow : Fault → Bool
  | tapeOverflow .. => true
  | _ => false

namespace Pool

/-- How many instructions the machines have counted together. -/
def work (machines : List Machine) : Nat := (machines.map Machine.steps).sum

theorem work_append (first second : List Machine) :
    work (first ++ second) = work first + work second := by
  simp [work]

theorem work_perm {first second : List Machine} (same : first.Perm second) :
    work first = work second :=
  (same.map Machine.steps).sum_nat

/-- The heirs of a machine have counted the instruction that it has executed, and one that it
has begun and not finished. -/
theorem Heirs.work_eq {program : Program} {config : Config} {machine : Machine} {child : Nat}
    {fault? : Option Fault} {heirs : List Machine}
    (become : Heirs program config machine child fault? heirs) :
    work heirs = machine.steps + (if fault?.isNone && machine.pending program then 1 else 0) +
      (fault?.any Fault.isOverflow).toNat := by
  cases become with
  | rested halted => simp [work, Machine.pending, halted]
  | stopped pending => simp [work, Fault.isOverflow]
  | limited pending reached => simp [work, Fault.isOverflow]
  | rejected live found admitted => simp [work, Fault.isOverflow, Machine.count]
  | ended live missing =>
      have behind : program.size ≤ machine.ip := Array.getElem?_eq_none_iff.mp missing
      simp [work, Machine.pending, Machine.halt, Nat.not_lt.mpr behind]
  | @advanced instruction next event? live found plain admitted performed =>
      have kept := Machine.perform_keeps program config.machine.overflow instruction machine.count
      rw [performed] at kept
      have steps : next.steps = machine.steps + 1 := kept.2.2.1
      simp [work, Machine.pending, live, program.lt_size_of_instruction? found, steps]
  | refused live found admitted =>
      simp [work, Machine.pending, live, program.lt_size_of_instruction? found, Machine.passFork,
        Machine.advance, Machine.count]
  | forked live found admitted =>
      simp [work, Machine.pending, live, program.lt_size_of_instruction? found, Machine.fork,
        Machine.count]

namespace Round

variable {program : Program} {config : Config} {machine : Machine} {round : Round}

/-- The two counts go up together in a turn, unless it ends in a move past the last cell. -/
theorem Turned.work_eq {result : Except (Fault × Round) Round}
    (turned : Turned program config machine round result) :
    work (left result).toPool.members + round.ledger.globalSteps =
      work (round.putBack machine).toPool.members + (left result).ledger.globalSteps +
        ((fault? result).any Fault.isOverflow).toNat := by
  obtain ⟨heirs, become, members, _⟩ := turned.leaves
  have before : work (round.putBack machine).toPool.members =
      machine.steps + work round.members := by
    rw [work_perm (members_toPool_putBack machine round)]
    exact List.sum_cons
  have after : work (left result).toPool.members = work heirs + work round.members := by
    rw [work_perm ((members_toPool _).trans members), work_append]
  rw [before, after, become.work_eq, isNone_fault?, turned.globalSteps_eq]
  omega

end Round

/-- Whether an ending is a move past the last cell. -/
def overflowed : Except Fault α → Bool
  | .ok _ => false
  | .error fault => fault.isOverflow

/-- Whether the next round ends in a move past the last cell. -/
def overflows (program : Program) (config : Config) (pool : Pool) : Bool :=
  overflowed (pool.sweep program config).2

variable {program : Program} {config : Config} {input : Input}

/-- The two counts go up together in a round, unless it ends in a move past the last cell. -/
theorem work_sweep (program : Program) (config : Config) (pool : Pool) :
    work (pool.sweep program config).1.members + pool.ledger.globalSteps =
      work pool.members + (pool.sweep program config).1.ledger.globalSteps +
        (pool.overflows program config).toNat := by
  have ends : SweepEnds program config
      (fun _ round => work round.toPool.members + pool.ledger.globalSteps =
        work pool.members + round.ledger.globalSteps) pool (pool.sweep program config) := by
    apply sweepEnds
    · intro past machine round after before turned
      have next := (Round.turned program config machine round).work_eq
      rw [turned] at next
      simp only [Round.left, Round.fault?, Option.any_none, Bool.toNat_false] at next
      change _ = work pool.members + round.ledger.globalSteps at before
      omega
    · simp [Round.start, Round.toPool]
  rw [overflows]
  revert ends
  generalize pool.sweep program config = ending
  intro ends
  cases ends with
  | @finished round kept turned =>
      rw [work_perm (members_retireHalted round.toPool)]
      exact kept
  | @aborted earlier machine round after fault last before turned =>
      have next := (Round.turned program config machine round).work_eq
      rw [turned] at next
      simp only [Round.left, Round.fault?, Option.any_some] at next
      change _ = work pool.members + round.ledger.globalSteps at before
      change work after.toPool.members + _ = work pool.members + after.ledger.globalSteps +
        fault.isOverflow.toNat
      omega

/-- The machines of a history have counted one instruction more than their pool for every round
that has ended in a move past the last cell. -/
theorem work_eq {past : List Pool} {pool : Pool}
    (history : History program config input past pool) :
    work pool.members = pool.ledger.globalSteps + past.countP (overflows program config) := by
  apply History.induction _ _ history
  · rfl
  · intro past pool before
    have next := work_sweep program config pool
    rw [List.countP_append, List.countP_singleton]
    cases overflow : pool.overflows program config with
    | false =>
        rw [overflow, Bool.toNat_false] at next
        simp only [Bool.false_eq_true, if_false]
        omega
    | true =>
        rw [overflow, Bool.toNat_true] at next
        simp only [if_true]
        omega

/-! ## Limits -/

/-- A machine executes an instruction only where the global limit admits one. -/
theorem Round.Turned.admitted {machine : Machine} {round after : Round}
    (turned : Turned program config machine round (.ok after))
    (pending : machine.pending program = true) :
    config.maxGlobalSteps.reached? round.ledger.globalSteps = none := by
  rw [Machine.pending, Bool.and_eq_true, Bool.not_eq_true', decide_eq_true_eq] at pending
  cases turned with
  | rested halted => exact absurd halted (Bool.eq_false_iff.mp pending.1)
  | advanced live admitted executed => exact admitted pending.2
  | halted live admitted executed => exact admitted pending.2
  | atFork live admitted executed resolved => exact admitted pending.2

/-- Turns keep within the global limit. -/
theorem globalSteps_le_kept (program : Program) {config : Config} {limit : Nat}
    (limited : config.maxGlobalSteps = some limit) :
    Kept program config fun pool => pool.ledger.globalSteps ≤ limit where
  turn {machine round result} turned before := by
    change (Round.left result).ledger.globalSteps ≤ limit
    rw [turned.globalSteps_eq]
    cases result with
    | error aborted => exact before
    | ok after =>
        split
        · rename_i counted
          have admitted := turned.admitted (Bool.and_eq_true_iff.mp counted).2
          rw [limited] at admitted
          exact Limit.lt_of_reached?_eq_none admitted
        · exact before
  retire before := before

/-- No heir exceeds a limit that the machine has kept. -/
theorem Heirs.steps_le {machine : Machine} {child limit : Nat} {fault? : Option Fault}
    {heirs : List Machine} (limited : config.machine.maxSteps = some limit)
    (become : Heirs program config machine child fault? heirs) (before : machine.steps ≤ limit) :
    ∀ heir ∈ heirs, heir.steps ≤ limit := by
  have counts (admitted : config.machine.maxSteps.reached? machine.steps = none) :
      machine.count.steps ≤ limit := by
    rw [limited] at admitted
    exact Limit.lt_of_reached?_eq_none admitted
  cases become with
  | rested halted => simpa using before
  | stopped pending => simpa using before
  | limited pending reached => simpa using before
  | ended live missing => simpa [Machine.halt] using before
  | rejected live found admitted => simpa using counts admitted
  | @advanced instruction next event? live found plain admitted performed =>
      have kept := Machine.perform_keeps program config.machine.overflow instruction machine.count
      rw [performed] at kept
      have steps : next.steps = machine.count.steps := kept.2.2.1
      simpa [steps] using counts admitted
  | refused live found admitted => simpa [Machine.passFork, Machine.advance] using counts admitted
  | forked live found admitted => simpa [Machine.fork] using counts admitted

/-- Turns keep every machine within its limit. -/
theorem steps_le_kept (program : Program) {config : Config} {limit : Nat}
    (limited : config.machine.maxSteps = some limit) :
    Kept program config fun pool => ∀ machine ∈ pool.members, machine.steps ≤ limit where
  turn {machine round result} turned before := by
    obtain ⟨heirs, leaves⟩ := turned.leaves
    exact leaves.forall_members before (leaves.become.steps_le limited) fun _ within => within
  retire {pool} before machine machineMem :=
    before machine ((members_retireHalted pool).mem_iff.mp machineMem)

/-- No machine executes more instructions than its limit admits. -/
theorem steps_le_of_reachable {program : Program} {config : Config} {input : Input} {limit : Nat}
    {pool : Pool} (limited : config.machine.maxSteps = some limit)
    (reachable : Reachable program config input pool) :
    ∀ machine ∈ pool.members, machine.steps ≤ limit := by
  have start : ∀ machine ∈ (initial config input).members, machine.steps ≤ limit := by
    simp [members, initial, Machine.initial]
  exact (steps_le_kept program limited).of_reachable start reachable

/-! ## Runs -/

/-- A run ends in a move past the last cell when one of its rounds does, and this is its last. -/
theorem countP_overflows_rounds {fuel : Nat} {pool after : Pool} {outcome : Except Fault Unit}
    (returned : pool.run program config fuel = some (after, outcome)) :
    (pool.rounds program config fuel).countP (overflows program config) =
      (overflowed outcome).toNat := by
  induction fuel generalizing pool with
  | zero => simp [run, iterate] at returned
  | succ fuel ih =>
      cases undone : pool.isDone with
      | true =>
          rw [run_succ_of_isDone undone, Option.some.injEq] at returned
          cases returned
          simp [rounds, undone, overflowed]
      | false =>
          rw [run_succ_of_not_isDone undone] at returned
          rw [rounds, if_neg (Bool.eq_false_iff.mp undone), List.countP_cons, overflows]
          rcases swept : pool.sweep program config with ⟨next, ended⟩
          rw [swept] at returned
          cases ended with
          | error fault =>
              cases returned
              cases overflow : fault.isOverflow <;> simp [overflowed, overflow]
          | ok progressed =>
              cases progressed with
              | false =>
                  cases returned
                  simp [overflowed]
              | true => simpa [overflowed] using ih returned

/-- The sum of the steps in a report is what its machines have counted. -/
theorem sum_steps_report (pool : Pool) :
    (pool.report.results.map Machine.Result.steps).sum = work pool.members := by
  rw [report, List.map_map]
  exact work_perm pool.machines_perm_members

/-- Whatever rounds and runs have led to a pool, the steps in its report add up to the count of
the pool and one more for every round that has ended in a move past the last cell; the count of
the pool keeps within the global limit, and every machine within its own. So a run from a pool
without such rounds that ends otherwise reports the sum of the steps of its machines. -/
theorem steps_accounted {past : List Pool} {pool : Pool}
    (history : History program config input past pool) :
    (pool.report.results.map Machine.Result.steps).sum =
        pool.ledger.globalSteps + past.countP (overflows program config) ∧
      (∀ limit, config.maxGlobalSteps = some limit → pool.ledger.globalSteps ≤ limit) ∧
      (∀ limit, config.machine.maxSteps = some limit →
        ∀ result ∈ pool.report.results, result.steps ≤ limit) ∧
      (past.countP (overflows program config) = 0 → ∀ fuel after outcome,
        pool.run program config fuel = some (after, outcome) →
        (outcome = .ok () ∨ (∃ id limit, outcome = .error (.stepLimit id limit)) ∨
          ∃ limit, outcome = .error (.globalStepLimit limit)) →
        after.report.totalSteps = (after.report.results.map Machine.Result.steps).sum) := by
  constructor
  · rw [sum_steps_report, work_eq history]
  constructor
  · intro limit limited
    have start : (initial config input).ledger.globalSteps ≤ limit := Nat.zero_le limit
    exact (globalSteps_le_kept program limited).of_reachable start history.reachable
  constructor
  · rintro limit limited result resultMem
    obtain ⟨machine, machineMem, rfl⟩ := mem_results_iff.mp resultMem
    exact steps_le_of_reachable limited history.reachable machine machineMem
  · intro clean fuel after outcome returned ends
    have counted := work_eq (history.run returned)
    rw [List.countP_append, clean, countP_overflows_rounds returned] at counted
    have finished : overflowed outcome = false := by
      rcases ends with rfl | ⟨id, limit, rfl⟩ | ⟨limit, rfl⟩ <;> rfl
    rw [sum_steps_report, counted, finished]
    rfl

/-- The program of a `fork` and a move to the next cell. -/
def forkRight : Program where
  instructions := #[.fork, .right]
  offsets := #[0, 4]
  pairing := ⟨#[none, none]⟩
  paired := rfl

/-- Machines on one cell, which may execute `maxSteps` instructions each and five together. -/
def oneCell (maxSteps : Nat) : Config where
  maxGlobalSteps := some 5
  machine := { tapeCapacity := 1, maxSteps := some maxSteps }

/-- Three rounds fork off a machine and move past the last cell twice, so the machines have
counted two instructions more than the pool. Held to one instruction, no machine comes to the
move, and the run reports what its machines have counted. -/
theorem forkRight_steps_accounted :
    (∃ past pool, History forkRight (oneCell 3) ⟨[]⟩ past pool ∧
      past.countP (overflows forkRight (oneCell 3)) = 2 ∧
      (pool.report.results.map Machine.Result.steps).sum =
        pool.ledger.globalSteps + past.countP (overflows forkRight (oneCell 3)) ∧
      pool.ledger.globalSteps ≤ 5 ∧ ∀ result ∈ pool.report.results, result.steps ≤ 3) ∧
    ∃ after, (initial (oneCell 1) ⟨[]⟩).run forkRight (oneCell 1) 3 =
        some (after, .error (.stepLimit 0 1)) ∧
      after.report.totalSteps = (after.report.results.map Machine.Result.steps).sum := by
  constructor
  · have history : History forkRight (oneCell 3) ⟨[]⟩ _ _ := .sweep (.sweep (.sweep .initial))
    obtain ⟨total, globally, each, _⟩ := steps_accounted history
    exact ⟨_, _, history, rfl, total, globally 5 rfl, each 3 rfl⟩
  · have history : History forkRight (oneCell 1) ⟨[]⟩ [] (initial (oneCell 1) ⟨[]⟩) := .initial
    obtain ⟨_, _, _, ends⟩ := steps_accounted history
    exact ⟨_, rfl, ends rfl 3 _ _ rfl (.inr (.inl ⟨0, 1, rfl⟩))⟩

end Pool

end ForkTape
