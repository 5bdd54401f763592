import ForkTape.Proofs.Pool.LiveBudget
import ForkTape.Proofs.Pool.StepCount
import ForkTape.Proofs.Report.Binary
import ForkTape.Proofs.Tape.Truncation
import Mathlib.Algebra.Order.BigOperators.Group.List
import Mathlib.Algebra.Order.Group.Nat

/-!
# What a run uses up

Whatever a pool comes to hold is paid for by instructions it has counted. A machine writes a byte,
forks off a child or scans another cell only by executing an instruction, and a child begins with
the cells that its parent had scanned (`Machine.Frugal`, `Pool.Frugal`).

So the counts of a report bound all its other numbers, and a report that is in range in them
(`Report.InRange`) fits the binary form.
-/

namespace ForkTape

namespace Machine

/-- The machine has paid by instructions of its own for its output and its children, and some of
`count` instructions have been paid for the cells that were scanned on its tape. -/
structure Frugal (count : Nat) (machine : Machine) : Prop where
  output : machine.output.size ≤ machine.steps
  children : machine.children.size ≤ machine.steps
  reach : machine.tape.reach ≤ count

theorem Frugal.mono {count more : Nat} {machine : Machine} (frugal : machine.Frugal count)
    (le : count ≤ more) : machine.Frugal more :=
  ⟨frugal.output, frugal.children, Nat.le_trans frugal.reach le⟩

/-- An instruction adds at most a byte to the output and a cell to those that have been scanned. -/
theorem perform_uses (program : Program) (overflow : Tape.Overflow) (instruction : Instruction)
    (machine : Machine) :
    (perform program overflow instruction machine).machine.output.size ≤
        machine.output.size + 1 ∧
      (perform program overflow instruction machine).machine.children = machine.children ∧
      (perform program overflow instruction machine).machine.tape.reach ≤
        machine.tape.reach + 1 := by
  cases instruction with
  | right =>
      have within := machine.tape.reach_right_le overflow
      rcases moved : machine.tape.right overflow with ⟨tape, result⟩
      rw [moved] at within
      cases result <;> simp [perform, moved, advance, within]
  | _ => simp [perform, advance]

end Machine

namespace Pool

variable {program : Program} {config : Config} {input : Input}

/-- What a turn puts in the place of a machine is paid for by the instruction that it counts. -/
theorem Heirs.frugal {machine : Machine} {child count : Nat} {fault? : Option Fault}
    {heirs : List Machine} (become : Heirs program config machine child fault? heirs)
    (before : machine.Frugal count) :
    ∀ heir ∈ heirs,
      heir.Frugal (count + if fault?.isNone && machine.pending program then 1 else 0) := by
  obtain ⟨output, children, reach⟩ := before
  cases become with
  | rested halted =>
      exact List.forall_mem_singleton.mpr ⟨output, children, Nat.le_add_right_of_le reach⟩
  | stopped pending => exact List.forall_mem_singleton.mpr ⟨output, children, reach⟩
  | limited pending reached => exact List.forall_mem_singleton.mpr ⟨output, children, reach⟩
  | ended live missing =>
      exact List.forall_mem_singleton.mpr ⟨output, children, Nat.le_add_right_of_le reach⟩
  | rejected live found admitted =>
      exact List.forall_mem_singleton.mpr
        ⟨Nat.le_succ_of_le output, Nat.le_succ_of_le children, reach⟩
  | @advanced instruction next event? live found plain admitted performed =>
      have kept := Machine.perform_keeps program config.machine.overflow instruction machine.count
      have uses := Machine.perform_uses program config.machine.overflow instruction machine.count
      rw [performed] at kept uses
      obtain ⟨-, -, steps, -⟩ := kept
      obtain ⟨written, same, scanned⟩ := uses
      simp only [Machine.count] at steps written same scanned
      simp only [List.forall_mem_singleton, Option.isNone_none, Bool.true_and, if_true,
        Machine.pending_of_found live found]
      exact ⟨by omega, by rw [same]; omega, by omega⟩
  | refused live found admitted =>
      exact List.forall_mem_singleton.mpr
        ⟨Nat.le_succ_of_le output, Nat.le_succ_of_le children, Nat.le_add_right_of_le reach⟩
  | forked live found admitted =>
      simp only [List.forall_mem_cons, Machine.fork, Machine.count]
      refine ⟨⟨Nat.le_succ_of_le output, ?_, Nat.le_add_right_of_le reach⟩,
        ⟨Nat.zero_le _, Nat.zero_le _, Nat.le_add_right_of_le reach⟩, by simp⟩
      rw [Array.size_push]
      exact Nat.succ_le_succ children

/-- All that a pool holds is paid for by instructions that it has counted. -/
structure Frugal (pool : Pool) : Prop where
  machines : ∀ machine ∈ pool.members, machine.Frugal pool.ledger.globalSteps
  refusals : pool.ledger.refusals.size ≤ pool.ledger.globalSteps

namespace Round

variable {machine : Machine} {round : Round}

theorem Resolved.refusals_le {after : Round} (resolved : Resolved config machine round after) :
    after.ledger.refusals.size ≤ round.ledger.refusals.size + 1 := by
  cases resolved with
  | forked room => exact Nat.le_succ _
  | refused full => simp [visit, book, Ledger.bookRefusal, Ledger.record]

/-- A refusal is paid for by the `fork` that was refused. -/
theorem Turned.refusals_le {result : Except (Fault × Round) Round}
    (turned : Turned program config machine round result)
    (before : round.ledger.refusals.size ≤ round.ledger.globalSteps) :
    (left result).ledger.refusals.size ≤ (left result).ledger.globalSteps := by
  cases turned with
  | rested halted => exact before
  | stopped live pending reached => exact before
  | faulted live admitted executed => simpa [left, putBack, book] using before
  | advanced live admitted executed =>
      simpa [left, visit, progress, book, Ledger.countStep] using Nat.le_succ_of_le before
  | halted live admitted executed =>
      simpa [left, visit, progress, book, Ledger.record] using before
  | @atFork next event? after live admitted executed resolved =>
      have within := resolved.refusals_le
      have counted := resolved.globalSteps_eq
      simp only [retireHalted, Ledger.retire, progress, book, Ledger.countStep,
        Ledger.refusals_recordAny, Ledger.globalSteps_recordAny] at within counted
      simp only [left]
      omega

end Round

/-- Turns pay for what they leave. -/
theorem frugal_kept (program : Program) (config : Config) : Kept program config Frugal where
  turn {machine round result} turned before := by
    obtain ⟨heirs, leaves⟩ := turned.leaves
    have counted := turned.globalSteps_eq
    rw [← Round.isNone_fault?] at counted
    refine ⟨?_, turned.refusals_le before.refusals⟩
    change ∀ other ∈ (Round.left result).toPool.members,
      other.Frugal (Round.left result).ledger.globalSteps
    rw [counted]
    exact leaves.forall_members before.machines leaves.become.frugal fun _ frugal =>
      frugal.mono (Nat.le_add_right _ _)
  retire {pool} before :=
    ⟨fun machine machineMem =>
      before.machines machine ((members_retireHalted pool).mem_iff.mp machineMem), before.refusals⟩

theorem frugal_of_reachable {pool : Pool} (reachable : Reachable program config input pool) :
    pool.Frugal := by
  have start : (initial config input).Frugal := by
    constructor
    · simp only [members, initial, List.nil_append, List.forall_mem_singleton]
      exact ⟨Nat.le_refl _, Nat.le_refl _, Nat.le_refl _⟩
    · exact Nat.le_refl _
  exact (frugal_kept program config).of_reachable start reachable

end Pool

/-! ## Reports in range -/

/-- The counts of a report are such that ids have 32 bits and numbers 64. A tape can have one more
cell that has been scanned than instructions have been executed, and its length is a number, too. -/
structure Report.InRange (report : Report) : Prop where
  machines : report.results.length ≤ 2 ^ 32
  totalSteps : report.totalSteps + 1 < 2 ^ 64

namespace Pool

variable {program : Program} {config : Config} {input : Input} {pool : Pool}

/-- There are as many results as ids have been given away. -/
theorem length_results (tells : pool.ledger.Tells pool.members) :
    pool.report.results.length = pool.ledger.nextId := by
  have ids := congrArg List.length (machines_ids tells)
  rw [List.length_map, List.length_range] at ids
  rw [report, List.length_map, ids]

/-- Where the counts are in range, so are all numbers of a machine whose instructions the pool has
counted. -/
theorem result_fits (reachable : Reachable program config input pool)
    (inRange : pool.report.InRange) {machine : Machine} (machineMem : machine ∈ pool.members)
    (counted : machine.steps ≤ pool.ledger.globalSteps) : machine.result.Fits := by
  have tells := tells_of_reachable reachable
  have kinMem : machine.kin ∈ pool.members.map Machine.kin := List.mem_map_of_mem machineMem
  have id_lt : machine.id < pool.ledger.nextId := tells.id_lt machineMem
  obtain ⟨output, children, reach⟩ := (frugal_of_reachable reachable).machines machine machineMem
  have position := machine.tape.position_le_reach
  have truncated := machine.tape.length_truncated_le
  obtain ⟨ids, steps⟩ := inRange
  rw [length_results tells] at ids
  change pool.ledger.globalSteps + 1 < 2 ^ 64 at steps
  constructor
  · exact Nat.lt_of_lt_of_le id_lt ids
  · intro parent isParent
    rcases tells.lineage.parents machine.kin kinMem with ⟨_, root⟩ | ⟨other, other_lt, found⟩
    · have root : machine.parent = none := root
      simp [Machine.result, root] at isParent
    · have found : machine.parent = some other := found
      have other_lt : other < machine.id := other_lt
      obtain rfl : other = parent := by simpa [Machine.result, found] using isParent
      omega
  · intro child childMem
    exact Nat.lt_of_lt_of_le (tells.lineage.child_lt kinMem childMem) ids
  -- The other numbers are at most one above the count of instructions.
  all_goals
    simp only [Machine.result, Array.length_toList]
    omega

/-- Where the counts are in range, so are all numbers of a refusal. -/
theorem refusal_fits (reachable : Reachable program config input pool)
    (inRange : pool.report.InRange) (size : program.size < 2 ^ 64)
    (budget : config.maxLive < 2 ^ 64) {refusal : Refusal}
    (grounded : refusal.Grounded program config pool.report) : refusal.Fits where
  machine := by
    have tells := tells_of_reachable reachable
    obtain ⟨result, resultMem, same⟩ := grounded.machine
    obtain ⟨machine, machineMem, rfl⟩ := mem_results_iff.mp resultMem
    rw [← same]
    exact Nat.lt_of_lt_of_le (tells.id_lt machineMem) (length_results tells ▸ inRange.machines)
  instructionPointer := Nat.lt_trans (program.lt_size_of_instruction? grounded.fork) size
  live := by
    rw [grounded.live]
    omega
  budget := grounded.budget ▸ budget

/-- A run that ends without a fault leaves no machine that has counted more than the pool. -/
theorem steps_le_of_run {after : Pool} {fuel : Nat}
    (returned : (initial config input).run program config fuel = some (after, .ok ()))
    {machine : Machine} (machineMem : machine ∈ after.members) :
    machine.steps ≤ after.ledger.globalSteps := by
  have counted := work_eq (.run .initial returned)
  rw [List.nil_append, countP_overflows_rounds returned, overflowed, Bool.toNat_false,
    Nat.add_zero] at counted
  rw [← counted]
  exact List.le_sum_of_mem (List.mem_map_of_mem machineMem)

/-- The report of a run that ends without a fault fits the binary form when its counts are in
range. -/
theorem report_fits_of_run {after : Pool} {fuel : Nat}
    (returned : (initial config input).run program config fuel = some (after, .ok ()))
    (inRange : after.report.InRange) (size : program.size < 2 ^ 64)
    (budget : config.maxLive < 2 ^ 64) : after.report.Fits := by
  have history : History program config input _ after := .run .initial returned
  have reachable := history.reachable
  have refusalCount := (frugal_of_reachable reachable).refusals
  have grounded := ((budgeted_recorded program config).of_history
    ⟨retiredHalted_initial config input, budgeted_initial program config input⟩ history).2.grounded
  obtain ⟨machines, totalSteps⟩ := inRange
  constructor
  · intro result resultMem
    obtain ⟨machine, machineMem, rfl⟩ := mem_results_iff.mp resultMem
    exact result_fits reachable ⟨machines, totalSteps⟩ machineMem
      (steps_le_of_run returned machineMem)
  · omega
  · intro refusal refusalMem
    exact refusal_fits reachable ⟨machines, totalSteps⟩ size budget (grounded refusal refusalMem)
  · change after.ledger.refusals.toList.length < 2 ^ 64
    change after.ledger.globalSteps + 1 < 2 ^ 64 at totalSteps
    rw [Array.length_toList]
    omega
  · omega

end Pool

end ForkTape
