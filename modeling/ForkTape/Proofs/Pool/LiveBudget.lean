import ForkTape.Proofs.Pool.Growth
import ForkTape.Proofs.Pool.Isolation
import ForkTape.Proofs.Pool.Registry

/-!
# The budget of live machines

A pool lets no more machines run at once than its budget allows. The budget is compared with the
size of the registry, which is the number of machines that run because halted ones are retired
first.

`Move.Spends` tells this apart for one turn, by the number of machines that have not halted
wherever they are (`Pool.running`): a `fork` is carried out while there is room, and refused, with
an entry in the report, when there is none. `budgeted_of_history` is what follows for all turns of
a history.
-/

namespace ForkTape

/-- What the report tells of a refusal: a `fork` of the program, which one of its machines came to
when the budget was used up. -/
structure Refusal.Grounded (program : Program) (config : Pool.Config) (report : Report)
    (refusal : Refusal) : Prop where
  budget : refusal.budget = config.maxLive
  /-- The machine that asks runs, also where the budget allows nobody to. -/
  live : refusal.live = max 1 config.maxLive
  machine : ∃ result ∈ report.results, result.id = refusal.machine
  fork : program.instruction? refusal.instructionPointer = some .fork

/-- A refusal stays grounded in later reports. -/
theorem Refusal.Grounded.later {program : Program} {config : Pool.Config} {report later : Report}
    {refusal : Refusal} (grounded : refusal.Grounded program config report)
    (precedes : report.Precedes later) : refusal.Grounded program config later where
  budget := grounded.budget
  live := grounded.live
  machine := by
    obtain ⟨result, resultMem, id_eq⟩ := grounded.machine
    obtain ⟨grown, grownMem, same, _⟩ := precedes.results result resultMem
    exact ⟨grown, grownMem, same.trans id_eq⟩
  fork := grounded.fork

namespace Pool

variable {program : Program} {config : Config} {input : Input}

/-! ## Machines that run -/

/-- How many of the machines have not halted. -/
def countLive (machines : List Machine) : Nat :=
  machines.countP fun machine => !machine.halted

/-- How many machines of the pool have not halted, registered or not. -/
def running (pool : Pool) : Nat := countLive pool.machines

theorem countLive_cons (machine : Machine) (others : List Machine) :
    countLive (machine :: others) = countLive others + if machine.halted then 0 else 1 := by
  cases halted : machine.halted <;> simp [countLive, halted]

theorem countLive_perm {machines others : List Machine} (same : machines.Perm others) :
    countLive machines = countLive others :=
  same.countP_eq _

theorem running_eq {pool : Pool} {machines : List Machine} (same : pool.members.Perm machines) :
    pool.running = countLive machines :=
  countLive_perm (pool.machines_perm_members.trans same)

/-- The machines that run are the live ones of the registry. -/
theorem liveCount_eq_running {pool : Pool} (retired : pool.RetiredHalted) :
    pool.liveCount = pool.running := by
  rw [running_eq (.refl _), countLive, List.countP_eq_length_filter, live_members retired,
    liveCount, List.countP_eq_length_filter]

theorem running_retireHalted (pool : Pool) : pool.retireHalted.running = pool.running :=
  (running_eq pool.members_retireHalted).trans (running_eq (.refl _)).symm

/-- When halted machines have been retired, the others in the registry are those that run. -/
theorem others_retireHalted {round : Round}
    (retired : ∀ machine ∈ round.ledger.retired.toList, machine.halted = true) :
    round.retireHalted.others = countLive round.members := by
  have nobody : countLive round.ledger.retired.toList = 0 :=
    List.countP_eq_zero.mpr fun machine machineMem => by simp [retired machine machineMem]
  rw [Round.members, countLive, List.countP_append, ← countLive, nobody, Nat.zero_add,
    List.countP_append, List.countP_append, ← Nat.add_assoc]
  simp only [List.countP_eq_length_filter]
  rfl

/-- A machine that grows does not begin to run again. -/
theorem countLive_grows {machine next : Machine} (grows : machine.Grows next)
    (others : List Machine) : countLive (next :: others) ≤ countLive (machine :: others) := by
  rw [countLive_cons, countLive_cons]
  apply Nat.add_le_add_left
  cases halted : machine.halted with
  | true => simp [grows.halted halted, halted]
  | false => split <;> simp

/-! ## What a turn spends -/

/-- What a turn does to the number of running machines and to the refusals. -/
inductive Move.Spends (program : Program) (config : Config) (move : Move) : Prop
  /-- The turn comes to no `fork`. -/
  | plain (elsewhere : move.executed? program config ≠ some .fork)
      (running : (move.after program config).running ≤ move.before.running)
      (refusals : (move.after program config).report.refusals = move.before.report.refusals)
  /-- There is room for a child. -/
  | forked {child : Nat} (verdict : move.verdict? program config = some (.forked child))
      (room : move.before.running < config.maxLive)
      (running : (move.after program config).running = move.before.running + 1)
      (refusals : (move.after program config).report.refusals = move.before.report.refusals)
  /-- There is no room, and the refusal tells how many machines run. -/
  | refused (verdict : move.verdict? program config = some .refused)
      (live : move.machine.halted = false)
      (found : program.instruction? move.machine.ip = some .fork)
      (full : config.maxLive ≤ move.before.running)
      (running : (move.after program config).running = move.before.running)
      (refusals : (move.after program config).report.refusals = move.before.report.refusals ++
        [⟨move.machine.id, move.machine.ip, move.before.running, config.maxLive⟩])

namespace Move

variable {machine : Machine} {round : Round}

theorem running_before (machine : Machine) (round : Round) :
    (before ⟨machine, round⟩).running = countLive (machine :: round.members) :=
  running_eq (Round.members_toPool_putBack machine round)

/-- A turn that comes to no `fork` lets nobody begin to run. -/
theorem spends_of_plain {outcome : Except (Fault × Round) Round} {next : Machine}
    (result : round.turn program config machine = outcome)
    (elsewhere : executed? program config ⟨machine, round⟩ ≠ some .fork)
    (grows : machine.Grows next)
    (members : (Round.left outcome).members.Perm (next :: round.members))
    (refusals : (Round.left outcome).ledger.refusals = round.ledger.refusals) :
    Spends program config ⟨machine, round⟩ := by
  have left : after program config ⟨machine, round⟩ = (Round.left outcome).toPool := by
    rw [after, Move.result, result]
  apply Spends.plain elsewhere
  · rw [left, running_eq ((Round.members_toPool _).trans members), running_before]
    exact countLive_grows grows _
  · rw [left]
    exact congrArg Array.toList refusals

/-- A `fork` is resolved by the number of running machines. -/
theorem spends_of_resolved {afterwards : Round}
    (retired : ∀ other ∈ round.ledger.retired.toList, other.halted = true)
    (result : round.turn program config machine = .ok afterwards)
    (live : machine.halted = false) (found : program.instruction? machine.ip = some .fork)
    (resolved : Round.Resolved config machine.count
      (round.book Ledger.countStep).progress.retireHalted afterwards) :
    Spends program config ⟨machine, round⟩ := by
  have ended : Round.fault? (round.turn program config machine) = none := by rw [result]; rfl
  have forks : executed? program config ⟨machine, round⟩ = some .fork :=
    (executed?_eq_instruction? ended live).trans found
  -- The budget is compared with the machine that asks and the others that the registry then holds.
  have stays : (round.book Ledger.countStep).progress.retireHalted.members.Perm round.members :=
    Round.members_retireHalted _
  have others : (round.book Ledger.countStep).progress.retireHalted.others =
      countLive round.members := others_retireHalted retired
  have before_eq : (before ⟨machine, round⟩).running = countLive round.members + 1 := by
    rw [running_before, countLive_cons, live]
    rfl
  have after_eq {machines : List Machine} (members : afterwards.members.Perm machines) :
      (after program config ⟨machine, round⟩).running = countLive machines := by
    rw [after, Move.result, result]
    exact running_eq ((Round.members_toPool _).trans members)
  have reported : (after program config ⟨machine, round⟩).report.refusals =
      afterwards.ledger.refusals.toList := by
    rw [after, Move.result, result]
    rfl
  cases resolved with
  | forked room =>
      refine .forked (verdict?_eq_forked forks (by rw [result]; rfl)) ?_ ?_ reported
      · rw [before_eq, ← others]
        exact room
      · rw [after_eq ((Round.members_visit_bear_book rfl _ _).trans ((stays.cons _).cons _)),
          countLive_cons, countLive_cons, before_eq]
        simp [Machine.fork, Machine.count, live]
  | refused full =>
      refine .refused (verdict?_eq_refused forks (by rw [result]; rfl)) live found ?_ ?_ ?_
      · rw [before_eq, ← others]
        exact full
      · rw [after_eq ((Round.members_visit_book rfl _).trans (stays.cons _)), countLive_cons,
          before_eq]
        simp [Machine.passFork, Machine.advance, Machine.count, live]
      · rw [reported, before_eq, ← others]
        exact Array.toList_push ..

/-- What every turn spends. -/
theorem spends {move : Move} (retired : move.before.RetiredHalted) :
    Spends program config move := by
  rcases move with ⟨machine, round⟩
  have turned := Round.turned program config machine round
  generalize result : round.turn program config machine = outcome at turned
  cases turned with
  | rested halted =>
      apply spends_of_plain result _ (.refl machine) (Round.members_visit _ _) rfl
      exact executed?_ne_fork (by simp [Machine.exec, halted])
  | stopped live pending reached =>
      apply spends_of_plain result _ (.refl machine) (Round.members_putBack _ _) rfl
      rw [executed?_eq_none (by rw [result]; rfl)]
      simp
  | @faulted next fault event? live admitted executed =>
      exact spends_of_plain result (executed?_ne_fork (by simp [executed]))
        (Machine.executes_of_exec executed).grows
        (Round.members_putBack_book (Ledger.retired_recordAny _ _) next)
        (Ledger.refusals_recordAny _ _)
  | @advanced next event? live admitted executed =>
      exact spends_of_plain result (executed?_ne_fork (by simp [executed]))
        (Machine.executes_of_exec executed).grows
        (Round.members_visit_book (Ledger.retired_recordAny _ _) next)
        (Ledger.refusals_recordAny _ _)
  | @halted next event? live admitted executed =>
      exact spends_of_plain result (executed?_ne_fork (by simp [executed]))
        (Machine.executes_of_exec executed).grows
        (Round.members_visit_book (Ledger.retired_recordAny _ _) next)
        (Ledger.refusals_recordAny _ _)
  | @atFork next event? afterwards live admitted executed resolved =>
      cases Machine.executes_of_exec executed with
      | reachedFork live found admitted =>
          exact spends_of_resolved retired result live found resolved

/-- The turn has kept to the budget. -/
structure KeepsBudget (program : Program) (config : Config) (move : Move) : Prop where
  before : move.before.running ≤ max 1 config.maxLive
  after : (move.after program config).running ≤ max 1 config.maxLive
  /-- A `fork` is refused exactly when as many machines run as the budget allows. Those that have
  halted earlier in the round do not. -/
  refused_iff : move.executed? program config = some .fork →
    (move.verdict? program config = some .refused ↔ config.maxLive ≤ move.before.running)
  /-- A refusal is reported, and nothing else is reported as one. -/
  reported : (move.after program config).report.refusals = move.before.report.refusals ++
    if move.verdict? program config = some .refused then
      [⟨move.machine.id, move.machine.ip, move.before.running, config.maxLive⟩]
    else []

namespace Spends

variable {move : Move}

/-- A turn keeps to the budget when it begins within it. -/
theorem keepsBudget (spends : Spends program config move)
    (within : move.before.running ≤ max 1 config.maxLive) : KeepsBudget program config move := by
  cases spends with
  | plain elsewhere running refusals =>
      have unresolved : move.verdict? program config = none := if_neg elsewhere
      exact ⟨within, Nat.le_trans running within, fun forks => absurd forks elsewhere,
        by simp [unresolved, refusals]⟩
  | forked verdict room running refusals =>
      refine ⟨within, ?_, fun _ => ?_, by simp [verdict, refusals]⟩
      · rw [running]
        exact Nat.le_trans room (Nat.le_max_right _ _)
      · simp [verdict, room]
  | refused verdict live found full running refusals =>
      exact ⟨within, running ▸ within, fun _ => by simp [verdict, full],
        by simp [verdict, refusals]⟩

/-- The refusal that a turn adds is grounded, like those before it. -/
theorem grounded (spends : Spends program config move)
    (within : move.before.running ≤ max 1 config.maxLive)
    (before : ∀ refusal ∈ move.before.report.refusals,
      refusal.Grounded program config move.before.report) :
    ∀ refusal ∈ (move.after program config).report.refusals,
      refusal.Grounded program config move.before.report := by
  cases spends with
  | plain _ _ refusals => exact refusals ▸ before
  | forked _ _ _ refusals => exact refusals ▸ before
  | refused verdict live found full running refusals =>
      have present : move.machine ∈ move.before.members :=
        (Round.members_toPool_putBack move.machine move.round).mem_iff.mpr List.mem_cons_self
      have oneRuns : 1 ≤ move.before.running := by
        rw [running_before, countLive_cons, live]
        exact Nat.le_add_left _ _
      rw [refusals, List.forall_mem_append, List.forall_mem_singleton]
      refine ⟨before, rfl, ?_, ?_, found⟩
      · exact Nat.le_antisymm within (Nat.max_le.mpr ⟨oneRuns, full⟩)
      · exact ⟨_, mem_results_iff.mpr ⟨_, present, rfl⟩, rfl⟩

end Spends

end Move

/-! ## The budget of a history -/

/-- The turns `moves`, which have led to the pool, have kept to the budget. -/
structure Budgeted (program : Program) (config : Config) (moves : List Move) (pool : Pool) :
    Prop where
  /-- The registry holds all machines that run. -/
  live : pool.liveCount = pool.running
  /-- No more machines run than the budget allows, but for the first. -/
  running : pool.running ≤ max 1 config.maxLive
  turns : ∀ move ∈ moves, move.KeepsBudget program config
  grounded : ∀ refusal ∈ pool.report.refusals, refusal.Grounded program config pool.report

theorem budgeted_initial (program : Program) (config : Config) (input : Input) :
    Budgeted program config [] (initial config input) where
  live := liveCount_eq_running (retiredHalted_initial config input)
  running := (running_eq (.refl _)) ▸ Nat.le_max_left 1 _
  turns := by simp
  grounded := by simp [report, initial]

/-- Turns and the retiring of halted machines keep to the budget. -/
theorem budgeted_recorded (program : Program) (config : Config) :
    Recorded program config fun moves pool =>
      pool.RetiredHalted ∧ Budgeted program config moves pool where
  turn {past machine round} before := by
    obtain ⟨retired, budgeted⟩ := before
    have turned := Round.turned program config machine round
    have spends : Move.Spends program config ⟨machine, round⟩ := Move.spends retired
    have keeps := spends.keepsBudget budgeted.running
    have later := (retiredHalted_kept program config).turn turned retired
    refine ⟨later, liveCount_eq_running later, keeps.after, ?_, ?_⟩
    · rw [List.forall_mem_append, List.forall_mem_singleton]
      exact ⟨budgeted.turns, keeps⟩
    · intro refusal refusalMem
      exact (spends.grounded budgeted.running budgeted.grounded refusal refusalMem).later
        turned.effect.grows.report_precedes
  retire {past pool} before := by
    obtain ⟨retired, budgeted⟩ := before
    have later := (retiredHalted_kept program config).retire retired
    refine ⟨later, liveCount_eq_running later, ?_, budgeted.turns, ?_⟩
    · rw [running_retireHalted]
      exact budgeted.running
    · intro refusal refusalMem
      exact (budgeted.grounded refusal refusalMem).later (grows_retireHalted pool).report_precedes

/-- Whatever rounds and runs have led to a pool, and whether or not they ended in a fault, its
turns have kept to the budget. -/
theorem budgeted_of_history {past : List Pool} {pool : Pool}
    (history : History program config input past pool) :
    Budgeted program config (past.flatMap (moves program config)) pool :=
  ((budgeted_recorded program config).of_history
    ⟨retiredHalted_initial config input, budgeted_initial program config input⟩ history).2

/-- With room for two machines, the first machine and its child find no room for another. -/
theorem forkTwice_budgeted :
    ∃ past pool, History forkTwice { maxLive := 2 } ⟨[]⟩ past pool ∧
      pool.report.refusals = [⟨0, 1, 2, 2⟩, ⟨1, 1, 2, 2⟩] ∧
      Budgeted forkTwice { maxLive := 2 } (past.flatMap (moves forkTwice { maxLive := 2 })) pool :=
  ⟨_, _, .sweep (.sweep .initial), by decide +kernel,
    budgeted_of_history (.sweep (.sweep .initial))⟩

end Pool

end ForkTape
