import ForkTape.Proofs.Machine.StepLimit
import ForkTape.Proofs.Pool.Growth
import ForkTape.Proofs.Pool.Pace
import ForkTape.Proofs.Pool.StepCount

/-!
# Runs under a step limit

A limit on the instructions of each machine makes no difference to a run in which every machine
keeps within it. Any other run it stops, and the machine that stops it is the oldest of those that
go beyond the limit without it. For turns come in the order of ids, and a live machine is never
behind a younger one: when the first machine stands at the limit and has an instruction to execute,
all older ones have halted within the limit (`Stops`).

A machine that runs alone is stopped likewise. `stepLimit_exact` says both.
-/

namespace ForkTape

namespace Pool

/-- The configuration with another limit on the instructions of each machine. -/
def Config.withStepLimit (limit : Limit) (config : Config) : Config :=
  { config with machine := config.machine.withStepLimit limit }

@[simp] theorem Config.machine_withStepLimit (limit : Limit) (config : Config) :
    (config.withStepLimit limit).machine = config.machine.withStepLimit limit := rfl

@[simp] theorem Config.maxGlobalSteps_withStepLimit (limit : Limit) (config : Config) :
    (config.withStepLimit limit).maxGlobalSteps = config.maxGlobalSteps := rfl

variable {program : Program} {config : Config} {limit : Nat}

namespace Round

@[simp] theorem resolveFork_withStepLimit (limit : Limit) (machine : Machine) (round : Round) :
    resolveFork (config.withStepLimit limit) machine round = resolveFork config machine round :=
  rfl

/-- A turn under the limit is the turn without it, unless the machine stands at the limit and
would go beyond. -/
theorem turn_withStepLimit (machine : Machine) (round : Round) :
    turn program (config.withStepLimit (some limit)) machine round =
        turn program (config.withStepLimit none) machine round ∨
      (machine.pending program = true ∧ limit ≤ machine.steps ∧
        turn program (config.withStepLimit (some limit)) machine round =
          .error (.stepLimit machine.id limit, round.putBack machine)) := by
  by_cases stops : machine.pending program = true ∧ limit ≤ machine.steps
  · obtain ⟨pending, reached⟩ := stops
    have live : machine.halted = false := by
      simp only [Machine.pending, Bool.and_eq_true, Bool.not_eq_true'] at pending
      exact pending.1
    have limited := @Machine.exec_eq_limited program config.machine machine limit pending reached
    cases globally : (if machine.ip < program.size then
        config.maxGlobalSteps.reached? round.ledger.globalSteps else none) with
    | some bound =>
        left
        simp [turn, live, globally]
    | none =>
        right
        refine ⟨pending, reached, ?_⟩
        simp only [turn, Config.machine_withStepLimit, Config.maxGlobalSteps_withStepLimit, live,
          globally, limited]
        rfl
  · left
    have same := @Machine.exec_eq_of_admitted program config.machine machine limit
      fun pending => Nat.lt_of_not_le fun reached => stops ⟨pending, reached⟩
    simp [turn, same]

/-- A machine that executes an instruction at the limit goes beyond it. -/
theorem exists_beyond {machine : Machine} {round after : Round}
    (pending : machine.pending program = true) (reached : limit ≤ machine.steps)
    (turned : turn program config machine round = .ok after) :
    ∃ grown ∈ after.toPool.members, grown.id = machine.id ∧ limit < grown.steps := by
  simp only [Machine.pending, Bool.and_eq_true, Bool.not_eq_true', decide_eq_true_eq] at pending
  obtain ⟨heirs, become, members, _⟩ := (Round.turned program config machine round).leaves
  rw [turned] at become members
  obtain ⟨next, newborns, rfl, plays, _⟩ := become.plays pending.1
  refine ⟨next, ?_, plays.id_eq, ?_⟩
  · apply (members_toPool after).mem_iff.mpr
    exact members.mem_iff.mpr List.mem_cons_self
  · cases plays with
    | executed found admitted id live steps => exact steps ▸ Nat.lt_succ_of_le reached
    | halted missing halted =>
        exact absurd pending.2 (Nat.not_lt.mpr (Array.getElem?_eq_none_iff.mp missing))

/-- The first of the turns that are left. -/
theorem turns_succ_putBack (count : Nat) (machine : Machine) (round : Round) :
    (round.putBack machine).turns program config (count + 1) =
      match turn program config machine round with
      | .ok after => after.turns program config count
      | .error aborted => .error aborted := rfl

end Round

/-- The pool `stopped` is left when `machine` stands at the limit and would go beyond. Without the
limit the run has gone on to `later`. -/
structure Stops (limit : Nat) (machine : Machine) (stopped later : Pool) : Prop where
  mem : machine ∈ stopped.members
  reached : limit ≤ machine.steps
  /-- All older machines have halted. -/
  first : ∀ other ∈ stopped.members, other.id < machine.id → other.halted = true
  grows : stopped.Grows later
  beyond : ∃ grown ∈ later.members, grown.id = machine.id ∧ limit < grown.steps

/-- What the run goes on to without the limit may be later still. -/
theorem Stops.trans {machine : Machine} {stopped later last : Pool}
    (stops : Stops limit machine stopped later) (grows : later.Grows last) :
    Stops limit machine stopped last where
  mem := stops.mem
  reached := stops.reached
  first := stops.first
  grows := stops.grows.trans grows
  beyond := by
    obtain ⟨grown, grownMem, id_eq, beyond⟩ := stops.beyond
    obtain ⟨last, lastMem, lastGrows⟩ := grows.machines grown grownMem
    exact ⟨last, lastMem, lastGrows.id.trans id_eq, Nat.lt_of_lt_of_le beyond lastGrows.steps⟩

variable {birth : Nat → Nat} {rounds : Nat} {pool : Pool}

/-- When a machine in a round stands at the limit, those before it in the round have halted. -/
theorem Underway.halted_of_id_lt {moves : List Move} {heirs : List Machine} {machine : Machine}
    {round : Round} (paced : Paced birth rounds pool)
    (underway : Underway program (config.withStepLimit (some limit)) pool moves heirs
      (round.putBack machine)) (reached : limit ≤ machine.steps) :
    ∀ other ∈ (round.putBack machine).toPool.members, other.id < machine.id →
      other.halted = true := by
  have order : moves.map Move.machine ++ machine :: round.waiting = pool.registered :=
    underway.order
  have machineMem : machine ∈ pool.registered := by simp [← order]
  have ascending := paced.ordered.ascending
  rw [ids, ← order, List.map_append, List.map_cons, List.pairwise_append,
    List.pairwise_cons] at ascending
  obtain ⟨_, ⟨later, _⟩, _⟩ := ascending
  intro other otherMem older
  have members := (Round.members_toPool _).trans underway.members
  rw [members.mem_iff, List.mem_append, List.mem_append] at otherMem
  rcases otherMem with retired | (waiting | heirMem)
  · exact paced.tidy.halted other retired
  · rcases List.mem_cons.mp waiting with rfl | waiting
    · exact absurd older (Nat.lt_irrefl _)
    · exact absurd older (Nat.lt_asymm (later other.id (List.mem_map_of_mem waiting)))
  · rcases underway.become other heirMem with ⟨move, moveMem, plays⟩ | isNew
    · have moveReg : move.machine ∈ pool.registered := by
        rw [← order]
        exact List.mem_append_left _ (List.mem_map_of_mem moveMem)
      -- It was not behind `machine`, so at the limit it could only halt.
      have ahead := paced.steps_le moveReg machineMem (plays.id_eq ▸ Nat.le_of_lt older)
      cases plays with
      | executed found admitted id live steps =>
          have within := Limit.lt_of_reached?_eq_none admitted
          omega
      | halted missing halted =>
          rw [halted]
          rfl
    · have known := paced.id_lt (List.mem_append_right _ machineMem)
      have unknown := isNew.id
      omega

/-- A round under the limit that has come to no fault has gone, in `moves`, as it does without the
limit. -/
structure Followed (program : Program) (config : Config) (limit : Nat) (pool : Pool)
    (moves : List Move) (round : Round) : Prop where
  underway : ∃ heirs,
    Underway program (config.withStepLimit (some limit)) pool moves heirs round
  same : ∀ more,
    (Round.start pool).turns program (config.withStepLimit none) (moves.length + more) =
      round.turns program (config.withStepLimit none) more

/-- A turn without a fault is the same without the limit. -/
theorem Followed.turn {moves : List Move} {machine : Machine} {round after : Round}
    (tidy : pool.Tidy)
    (before : Followed program config limit pool moves (round.putBack machine))
    (ended : round.turn program (config.withStepLimit (some limit)) machine = .ok after) :
    Followed program config limit pool (moves ++ [⟨machine, round⟩]) after := by
  obtain ⟨⟨heirs, underway⟩, same⟩ := before
  obtain ⟨more, underway⟩ := underway.turn tidy ended
  refine ⟨⟨_, underway⟩, fun count => ?_⟩
  have turned : round.turn program (config.withStepLimit none) machine = .ok after := by
    rcases Round.turn_withStepLimit machine round with agrees | ⟨_, _, limited⟩
    · rw [← agrees, ended]
    · rw [ended] at limited
      contradiction
  rw [List.length_append, List.length_singleton, Nat.add_assoc, Nat.add_comm 1, same,
    Round.turns_succ_putBack, turned]

/-- When a turn under the limit faults and the round comes to no fault without it, the machine
that has the turn would go beyond the limit. -/
theorem Followed.stops (paced : Paced birth rounds pool) {moves : List Move} {machine : Machine}
    {round after final : Round} {fault : Fault}
    (before : Followed program config limit pool moves (round.putBack machine))
    (turned : round.turn program (config.withStepLimit (some limit)) machine =
      .error (fault, after))
    (finished : (Round.start pool).turns program (config.withStepLimit none)
      pool.registered.length = .ok final) :
    fault = .stepLimit machine.id limit ∧ Stops limit machine after.toPool final.toPool := by
  obtain ⟨⟨heirs, underway⟩, same⟩ := before
  have order : moves.length + (round.waiting.length + 1) = pool.registered.length := by
    rw [← underway.order, List.length_append, List.length_map]
    rfl
  rw [← order, same, Round.turns_succ_putBack] at finished
  cases unlimited : round.turn program (config.withStepLimit none) machine with
  | error aborted =>
      rw [unlimited] at finished
      contradiction
  | ok next =>
      rw [unlimited] at finished
      rcases Round.turn_withStepLimit machine round with agrees | ⟨pending, reached, limited⟩
      · rw [agrees, unlimited] at turned
        contradiction
      · rw [limited] at turned
        cases turned
        have effect := (Round.turned program (config.withStepLimit none) machine round).effect
        rw [unlimited] at effect
        have putBack := Round.members_toPool_putBack machine round
        have stops : Stops limit machine (round.putBack machine).toPool next.toPool :=
          { mem := putBack.mem_iff.mpr List.mem_cons_self
            reached := reached
            first := underway.halted_of_id_lt paced reached
            grows := effect.grows
            beyond := Round.exists_beyond pending reached unlimited }
        have goesOn := (grows_kept program (config.withStepLimit none) next.toPool).turns
          round.waiting.length (.refl _)
        have ended : next.turns program (config.withStepLimit none) round.waiting.length =
            .ok final := finished
        rw [ended] at goesOn
        exact ⟨rfl, stops.trans goesOn⟩

theorem exists_turns_of_sweep {next : Pool} {progressed : Bool}
    (swept : pool.sweep program config = (next, .ok progressed)) :
    ∃ round, (Round.start pool).turns program config pool.registered.length = .ok round ∧
      next = round.toPool.retireHalted ∧ progressed = round.progressed := by
  rw [sweep] at swept
  cases turned : (Round.start pool).turns program config pool.registered.length with
  | error aborted =>
      rw [turned] at swept
      cases swept
  | ok round =>
      rw [turned] at swept
      cases swept
      exact ⟨round, rfl, rfl, rfl⟩

/-- A round that comes to no fault without the limit is the same under it, or it stops. -/
theorem sweep_withStepLimit (paced : Paced birth rounds pool) {next : Pool} {progressed : Bool}
    (swept : pool.sweep program (config.withStepLimit none) = (next, .ok progressed)) :
    pool.sweep program (config.withStepLimit (some limit)) = (next, .ok progressed) ∨
      ∃ machine stopped, pool.sweep program (config.withStepLimit (some limit)) =
          (stopped, .error (.stepLimit machine.id limit)) ∧
        Stops limit machine stopped next := by
  have ends : SweepEnds program (config.withStepLimit (some limit))
      (Followed program config limit pool) pool
      (pool.sweep program (config.withStepLimit (some limit))) := by
    apply sweepEnds (Followed.turn paced.tidy)
    constructor
    · exact ⟨[], .start paced.tidy⟩
    · intro more
      rw [List.length_nil, Nat.zero_add]
  obtain ⟨final, finished, rfl, rfl⟩ := exists_turns_of_sweep swept
  revert ends
  generalize pool.sweep program (config.withStepLimit (some limit)) = limited
  intro ends
  cases ends with
  | @finished round kept turned =>
      left
      obtain ⟨⟨heirs, underway⟩, same⟩ := kept
      have order := congrArg List.length underway.order
      rw [underway.waiting_eq_nil turned, List.append_nil, List.length_map] at order
      have all := same 0
      rw [Nat.add_zero, order, finished] at all
      cases all
      rfl
  | @aborted earlier machine round after fault last before turned =>
      obtain ⟨rfl, stops⟩ := before.stops paced turned finished
      exact .inr ⟨machine, after.toPool, rfl, stops.trans (grows_retireHalted _)⟩

/-- A run that comes to no fault without the limit is the same under it, or it stops. -/
theorem run_withStepLimit {fuel : Nat} {final : Pool} (paced : Paced birth rounds pool)
    (returned : pool.run program (config.withStepLimit none) fuel = some (final, .ok ())) :
    pool.run program (config.withStepLimit (some limit)) fuel = some (final, .ok ()) ∨
      ∃ machine stopped, pool.run program (config.withStepLimit (some limit)) fuel =
          some (stopped, .error (.stepLimit machine.id limit)) ∧
        Stops limit machine stopped final := by
  induction fuel generalizing pool birth rounds with
  | zero => simp [run, iterate] at returned
  | succ fuel ih =>
      cases undone : pool.isDone with
      | true =>
          rw [run_succ_of_isDone undone] at returned ⊢
          exact .inl returned
      | false =>
          have goesOn := (run_succ_grows undone returned).1
          rw [run_succ_of_not_isDone undone] at returned ⊢
          rcases swept : pool.sweep program (config.withStepLimit none) with ⟨next, outcome⟩
          rw [swept] at returned goesOn
          cases outcome with
          | error fault => simp at returned
          | ok progressed =>
              rcases @sweep_withStepLimit program config limit _ _ _ paced _ _ swept with
                same | ⟨machine, stopped, limited, stops⟩
              · rw [same]
                cases progressed with
                | false => exact .inl returned
                | true => exact ih (paced.sweep swept) returned
              · rw [limited]
                exact .inr ⟨machine, stopped, rfl, stops.trans goesOn⟩

end Pool

/-- The machine `id` is the first of those that have executed more than `limit` instructions. -/
structure Report.FirstBeyond (report : Report) (limit id : Nat) : Prop where
  beyond : ∃ result ∈ report.results, result.id = id ∧ limit < result.steps
  first : ∀ result ∈ report.results, limit < result.steps → id ≤ result.id

namespace Pool

variable {program : Program} {config : Config} {limit : Nat}

/-- The machine that stops a run is the first that goes beyond the limit without it. -/
theorem Stops.firstBeyond {machine : Machine} {stopped later : Pool}
    (stops : Stops limit machine stopped later)
    (tells : stopped.ledger.Tells stopped.members)
    (laterTells : later.ledger.Tells later.members)
    (within : ∀ other ∈ stopped.members, other.steps ≤ limit) :
    later.report.FirstBeyond limit machine.id where
  beyond := by
    obtain ⟨grown, grownMem, id_eq, beyond⟩ := stops.beyond
    exact ⟨grown.result, mem_results_iff.mpr ⟨grown, grownMem, rfl⟩, id_eq, beyond⟩
  first result resultMem beyond := by
    obtain ⟨grown, grownMem, rfl⟩ := mem_results_iff.mp resultMem
    apply Nat.le_of_not_lt
    -- An older machine has halted within the limit, and so it has not changed since.
    intro older
    have older : grown.id < machine.id := older
    obtain ⟨other, otherMem, id_eq⟩ :=
      tells.exists_id_iff.mpr (Nat.lt_trans older (tells.id_lt stops.mem))
    obtain ⟨same, sameMem, grows⟩ := stops.grows.machines other otherMem
    obtain rfl := grows.halted (stops.first other otherMem (id_eq ▸ older))
    obtain rfl := List.inj_on_of_nodup_map laterTells.nodup_ids sameMem grownMem id_eq
    exact absurd beyond (Nat.not_lt.mpr (within _ otherMem))

end Pool

/-- A run of a pool that ends without a fault ends alike under every limit that all machines keep
within. Under any other it is stopped by the first machine that goes beyond the limit, which has
then executed exactly `limit` instructions. A run of a machine alone is stopped likewise, in the
state that it has without the limit after `limit` turns. -/
theorem stepLimit_exact (program : Program) (config : Pool.Config) (input : Input)
    (limit : Nat) :
    (∀ fuel pool,
      (Pool.initial (config.withStepLimit none) input).run program
          (config.withStepLimit none) fuel = some (pool, .ok ()) →
      ((∀ result ∈ pool.report.results, result.steps ≤ limit) →
        (Pool.initial (config.withStepLimit (some limit)) input).run program
          (config.withStepLimit (some limit)) fuel = some (pool, .ok ())) ∧
      ((∃ result ∈ pool.report.results, limit < result.steps) → ∃ id stopped,
        (Pool.initial (config.withStepLimit (some limit)) input).run program
            (config.withStepLimit (some limit)) fuel =
          some (stopped, .error (.stepLimit id limit)) ∧
        pool.report.FirstBeyond limit id ∧
        (stopped.report.find? id).map Machine.Result.steps = some limit)) ∧
    (∀ fuel run,
      (Machine.initial (config.machine.withStepLimit none) input).run program
          (config.machine.withStepLimit none) fuel = some run → run.outcome = .ok () →
      (run.machine.steps ≤ limit →
        (Machine.initial (config.machine.withStepLimit (some limit)) input).run program
          (config.machine.withStepLimit (some limit)) fuel = some run) ∧
      (limit < run.machine.steps → ∃ machine log,
        afterTurns? (Machine.runTurn program (config.machine.withStepLimit none)) limit
            (Machine.initial (config.machine.withStepLimit none) input, #[]) =
          some (machine, log) ∧ machine.steps = limit ∧
        (Machine.initial (config.machine.withStepLimit (some limit)) input).run program
            (config.machine.withStepLimit (some limit)) fuel =
          some ⟨machine, .error (.stepLimit 0 limit), log⟩)) := by
  constructor
  · intro fuel pool returned
    have paced := Pool.paced_initial (config.withStepLimit none) input
    rcases @Pool.run_withStepLimit program config limit _ _ _ _ _ paced returned with
      same | ⟨machine, stopped, limited, stops⟩
    · refine ⟨fun _ => same, ?_⟩
      rintro ⟨result, resultMem, beyond⟩
      obtain ⟨machine, machineMem, rfl⟩ := Pool.mem_results_iff.mp resultMem
      have within := Pool.steps_le_of_reachable rfl (.run .initial same) machine machineMem
      exact absurd beyond (Nat.not_lt.mpr within)
    · have reachable : Pool.Reachable program (config.withStepLimit (some limit)) input stopped :=
        .run .initial limited
      have within := Pool.steps_le_of_reachable rfl reachable
      have tells := Pool.tells_of_reachable reachable
      have later := Pool.tells_of_reachable (.run .initial returned)
      have first := stops.firstBeyond tells later within
      constructor
      · intro all
        obtain ⟨result, resultMem, _, beyond⟩ := first.beyond
        exact absurd beyond (Nat.not_lt.mpr (all result resultMem))
      · refine fun _ => ⟨machine.id, stopped, limited, first, ?_⟩
        rw [Pool.find?_report tells stops.mem, Option.map_some]
        exact congrArg some (Nat.le_antisymm (within machine stops.mem) stops.reached)
  · intro fuel run returned finished
    obtain ⟨same, stops⟩ :=
      @Machine.iterate_withStepLimit program config.machine
        (Machine.initial (config.machine.withStepLimit none) input) limit #[] fuel run
        (Nat.zero_le limit) returned finished
    refine ⟨same, fun beyond => ?_⟩
    obtain ⟨⟨machine, log⟩, reached, steps, stopped⟩ := stops beyond
    exact ⟨machine, log, reached, steps, stopped⟩

/-- The program that adds one to its cell, forks and adds one more. -/
def incForkInc : Program where
  instructions := #[.inc, .fork, .inc]
  offsets := #[0, 1, 5]
  pairing := ⟨#[none, none, none]⟩
  paired := rfl

/-- The first machine executes three instructions and the one that it forks off executes one. A
limit of three admits them, and a limit of two stops the first machine. Alone it is stopped in its
third turn. -/
theorem incForkInc_stepLimit_exact :
    (∃ pool,
      (Pool.initial {} ⟨[]⟩).run incForkInc (Pool.Config.withStepLimit none {}) 5 =
        some (pool, .ok ()) ∧
      (Pool.initial {} ⟨[]⟩).run incForkInc (Pool.Config.withStepLimit (some 3) {}) 5 =
        some (pool, .ok ()) ∧
      ∃ id stopped,
        (Pool.initial {} ⟨[]⟩).run incForkInc (Pool.Config.withStepLimit (some 2) {}) 5 =
          some (stopped, .error (.stepLimit id 2)) ∧
        pool.report.FirstBeyond 2 id ∧
        (stopped.report.find? id).map Machine.Result.steps = some 2) ∧
    ∃ machine log,
      afterTurns? (Machine.runTurn incForkInc (Machine.Config.withStepLimit none {})) 2
        (Machine.initial {} ⟨[]⟩, #[]) = some (machine, log) ∧ machine.steps = 2 ∧
      (Machine.initial {} ⟨[]⟩).run incForkInc (Machine.Config.withStepLimit (some 2) {}) 5 =
        some ⟨machine, .error (.stepLimit 0 2), log⟩ := by
  obtain ⟨pool, returned, steps⟩ : ∃ pool,
      (Pool.initial {} ⟨[]⟩).run incForkInc (Pool.Config.withStepLimit none {}) 5 =
        some (pool, .ok ()) ∧ pool.members.map Machine.steps = [3, 1] := ⟨_, rfl, rfl⟩
  have inSteps {machine : Machine} (machineMem : machine ∈ pool.members) :
      machine.steps ∈ [3, 1] := steps ▸ List.mem_map_of_mem machineMem
  constructor
  · refine ⟨pool, returned, ((stepLimit_exact incForkInc {} ⟨[]⟩ 3).1 5 pool returned).1 ?_,
      ((stepLimit_exact incForkInc {} ⟨[]⟩ 2).1 5 pool returned).2 ?_⟩
    · intro result resultMem
      obtain ⟨machine, machineMem, rfl⟩ := Pool.mem_results_iff.mp resultMem
      have bounded : ∀ steps ∈ [3, 1], steps ≤ 3 := by decide
      exact bounded _ (inSteps machineMem)
    · have longest : 3 ∈ pool.members.map Machine.steps := by simp [steps]
      obtain ⟨machine, machineMem, three⟩ := List.mem_map.mp longest
      refine ⟨machine.result, Pool.mem_results_iff.mpr ⟨machine, machineMem, rfl⟩, ?_⟩
      exact Nat.lt_of_lt_of_eq (Nat.lt_succ_self 2) three.symm
  · exact ((stepLimit_exact incForkInc {} ⟨[]⟩ 2).2 5 _ rfl rfl).2 (Nat.lt_succ_self 2)

end ForkTape
