import ForkTape.Proofs.Pool.Fairness
import ForkTape.Proofs.Pool.Termination
import Mathlib.Algebra.BigOperators.Group.Finset.Basic

/-!
# Programs without loops

A program without brackets moves every machine on by one instruction in every turn. So all machines
come to the same instruction in the same round, those forked off in between as well, and they all
halt in the round after the last instruction (`InStep`).

Where this instruction is a `fork` every machine asks for another one. The first to ask get it, and
the others are refused once the budget is used up. So the number of machines doubles with every
`fork` until it has reached the budget (`population`), and what is missing has been refused
(`refused`). In the middle of such a round the budget may run out, so `Tally` tells the numbers
after each turn, and `Marching` where the machines stand.
-/

namespace ForkTape

open Finset (range)

namespace Program

/-- The program has no loops. -/
def Straight (program : Program) : Prop :=
  ∀ instruction ∈ program.instructions, instruction.isBracket = false

/-- How many `fork` instructions stand before `index`. -/
def forksBefore (program : Program) (index : Nat) : Nat :=
  (program.instructions.toList.take index).count .fork

theorem forksBefore_succ {program : Program} {index : Nat} {instruction : Instruction}
    (found : program.instruction? index = some instruction) :
    program.forksBefore (index + 1) =
      program.forksBefore index + if instruction = .fork then 1 else 0 := by
  have found : program.instructions.toList[index]? = some instruction := by
    rw [Array.getElem?_toList]
    exact found
  simp [forksBefore, List.take_add_one, found, List.count_append, List.count_singleton]

theorem forksBefore_size (program : Program) :
    program.forksBefore program.size = program.forkCount := by
  rw [forksBefore, forkCount, List.take_of_length_le (Nat.le_refl program.size)]

end Program

namespace Machine

/-- The machine runs and has come to the instruction at `index`. -/
structure StandsAt (index : Nat) (machine : Machine) : Prop where
  live : machine.halted = false
  ip : machine.ip = index

variable {program : Program} {machine next : Machine} {index : Nat}

/-- Every instruction but a bracket leads on to the next one. -/
theorem ip_perform {overflow : Tape.Overflow} {instruction : Instruction} {event? : Option Event}
    (straight : instruction.isBracket = false)
    (performed : perform program overflow instruction machine = ⟨next, .ok .advanced, event?⟩) :
    next.ip = machine.ip + 1 := by
  cases instruction with
  | right =>
      rcases moved : machine.tape.right overflow with ⟨tape, result⟩
      cases result <;> simp [perform, moved] at performed <;> exact performed.1 ▸ rfl
  | loopOpen => contradiction
  | loopClose => contradiction
  | fork => cases performed
  | _ => cases performed; rfl

/-- A machine that executes an instruction other than a bracket comes to the next one. -/
theorem StandsAt.perform {overflow : Tape.Overflow} {instruction : Instruction}
    {event? : Option Event} (stands : machine.StandsAt index)
    (straight : instruction.isBracket = false)
    (performed : perform program overflow instruction machine.count =
      ⟨next, .ok .advanced, event?⟩) : next.StandsAt (index + 1) where
  live := by
    have kept := (perform_keeps program overflow instruction machine.count).2.1
    rw [performed] at kept
    exact kept.trans stands.live
  ip := by
    rw [ip_perform straight performed, ← stands.ip]
    rfl

theorem StandsAt.passFork (stands : machine.StandsAt index) :
    machine.passFork.StandsAt (index + 1) where
  live := stands.live
  ip := congrArg (· + 1) stands.ip

/-- A machine and its child are both past the `fork`. -/
theorem StandsAt.fork (stands : machine.StandsAt index) (child : Nat) (split : Input.Split) :
    (machine.fork child split).1.StandsAt (index + 1) ∧
      (machine.fork child split).2.StandsAt (index + 1) :=
  ⟨⟨stands.live, congrArg (· + 1) stands.ip⟩, ⟨rfl, congrArg (· + 1) stands.ip⟩⟩

theorem StandsAt.pending_eq (stands : machine.StandsAt index) :
    machine.pending program = decide (index < program.size) := by
  simp [pending, stands.live, stands.ip]

end Machine

namespace Pool

/-- How many machines there are when all of them have executed so many `fork` instructions. -/
def population (config : Config) : Nat → Nat
  | 0 => 1
  | forks + 1 => min (2 * population config forks) (max 1 config.maxLive)

/-- How often a machine has been refused by then. -/
def refused (config : Config) (forks : Nat) : Nat :=
  ∑ fork ∈ range forks, (2 * population config fork - population config (fork + 1))

theorem population_eq (config : Config) (forks : Nat) :
    population config forks = min (2 ^ forks) (max 1 config.maxLive) := by
  induction forks with
  | zero => simp [population]
  | succ forks ih =>
      rw [population, ih, Nat.pow_succ]
      omega

theorem refused_succ (config : Config) (forks : Nat) :
    refused config (forks + 1) =
      refused config forks + (2 * population config forks - population config (forks + 1)) :=
  Finset.sum_range_succ _ _

theorem one_le_population (config : Config) (forks : Nat) : 1 ≤ population config forks := by
  rw [population_eq]
  exact Nat.le_min.mpr ⟨Nat.one_le_two_pow, Nat.le_max_left ..⟩

theorem population_le (config : Config) (forks : Nat) :
    population config forks ≤ max 1 config.maxLive := by
  rw [population_eq]
  exact Nat.min_le_right ..

variable {program : Program} {config : Config} {input : Input}

/-! ## One turn -/

/-- Nobody is to be retired where nobody has halted. -/
theorem filter_of_live {machines : List Machine}
    (live : ∀ machine ∈ machines, machine.halted = false) :
    machines.filter (fun machine => !machine.halted) = machines ∧
      machines.filter Machine.halted = [] :=
  ⟨List.filter_eq_self.mpr (by simpa using live), List.filter_eq_nil_iff.mpr (by simpa using live)⟩

theorem retireHalted_of_live {pool : Pool}
    (live : ∀ machine ∈ pool.registered, machine.halted = false) : pool.retireHalted = pool := by
  simp [retireHalted, filter_of_live live, Ledger.retire]

theorem Round.retireHalted_of_live {round : Round}
    (visited : ∀ machine ∈ round.visited, machine.halted = false)
    (waiting : ∀ machine ∈ round.waiting, machine.halted = false)
    (born : ∀ machine ∈ round.born, machine.halted = false) : round.retireHalted = round := by
  simp [retireHalted, filter_of_live visited, filter_of_live waiting, filter_of_live born,
    Ledger.retire]

theorem Round.others_visit (machine : Machine) (round : Round) (ledger : Ledger)
    (progressed : Bool) :
    others ⟨machine :: round.visited, round.waiting, round.born, ledger, progressed⟩ =
      round.others + 1 := by
  simp only [others, List.length_cons]
  omega

theorem Round.others_visit_bear (machine newborn : Machine) (round : Round) (ledger : Ledger)
    (progressed : Bool) :
    others ⟨machine :: round.visited, round.waiting, newborn :: round.born, ledger, progressed⟩ =
      round.others + 1 + 1 := by
  simp only [others, List.length_cons]
  omega

theorem Round.others_putBack (machine : Machine) (round : Round) :
    (round.putBack machine).others = round.others + 1 := by
  simp only [others, putBack, List.length_cons]
  omega

/-- What a turn does in which the machine executes `instruction` and comes to the one at `index`,
when nobody has halted. -/
inductive Strides (config : Config) (instruction : Instruction) (index : Nat) (round : Round) :
    Round → Prop
  /-- The instruction forks nobody off. -/
  | plain {next : Machine} {ledger : Ledger} {progressed : Bool} (single : instruction ≠ .fork)
      (stands : next.StandsAt index) (retired : ledger.retired = round.ledger.retired)
      (refusals : ledger.refusals.size = round.ledger.refusals.size) :
      Strides config instruction index round
        ⟨next :: round.visited, round.waiting, round.born, ledger, progressed⟩
  /-- There is room for a child. -/
  | forked {next newborn : Machine} {ledger : Ledger} {progressed : Bool}
      (forks : instruction = .fork) (room : round.others + 1 < config.maxLive)
      (stands : next.StandsAt index ∧ newborn.StandsAt index)
      (retired : ledger.retired = round.ledger.retired)
      (refusals : ledger.refusals.size = round.ledger.refusals.size) :
      Strides config instruction index round
        ⟨next :: round.visited, round.waiting, newborn :: round.born, ledger, progressed⟩
  /-- There is none. -/
  | refused {next : Machine} {ledger : Ledger} {progressed : Bool}
      (forks : instruction = .fork) (full : config.maxLive ≤ round.others + 1)
      (stands : next.StandsAt index) (retired : ledger.retired = round.ledger.retired)
      (refusals : ledger.refusals.size = round.ledger.refusals.size + 1) :
      Strides config instruction index round
        ⟨next :: round.visited, round.waiting, round.born, ledger, progressed⟩

/-- A turn without a fault is one of these, whatever the instruction does to the machine's tape. -/
theorem Round.Turned.strides {machine : Machine} {round after : Round} {index : Nat}
    {instruction : Instruction} (turned : Turned program config machine round (.ok after))
    (stands : machine.StandsAt index) (found : program.instruction? index = some instruction)
    (straight : instruction.isBracket = false)
    (nobody : ∀ change, (round.book change).progress.retireHalted = (round.book change).progress) :
    Strides config instruction (index + 1) round after := by
  obtain rfl := stands.ip
  have executes {next : Machine} {outcome : Except Fault Machine.Progress} {event? : Option Event}
      (executed : machine.exec program config.machine = ⟨next, outcome, event?⟩) :=
    Machine.executes_of_exec executed
  cases turned with
  | rested halted =>
      rw [stands.live] at halted
      contradiction
  | advanced live admitted executed =>
      cases executes executed with
      | advanced live here plain admitted performed =>
          cases here.symm.trans found
          exact .plain plain (stands.perform straight performed)
            (Ledger.retired_recordAny _ round.ledger)
            (congrArg Array.size (Ledger.refusals_recordAny _ round.ledger))
  | halted live admitted executed =>
      cases executes executed with
      | rested halted => exact absurd halted (Bool.eq_false_iff.mp live)
      | ended live missing =>
          rw [found] at missing
          contradiction
  | atFork live admitted executed resolved =>
      cases executes executed with
      | reachedFork live here admitted =>
          cases here.symm.trans found
          have counted : machine.count.StandsAt machine.ip := ⟨live, rfl⟩
          rw [nobody] at resolved
          cases resolved with
          | forked room => exact .forked rfl room (counted.fork _ _) rfl rfl
          | refused full => exact .refused rfl full counted.passFork rfl (Array.size_push _)

/-! ## One round -/

/-- How many machines have been asked for in so many turns at an instruction. -/
def asked (instruction : Instruction) (turns : Nat) : Nat :=
  if instruction = .fork then turns else 0

/-- What has become of the machines that were asked for, when there were `start` machines and `past`
refusals before: now there are so many machines and refusals. -/
structure Tally (config : Config) (start past wanted machines refusals : Nat) : Prop where
  /-- Whoever has asked first has got another machine. -/
  count : machines = min (start + wanted) (max 1 config.maxLive)
  /-- Whoever has not got one has been refused. -/
  sum : machines + refusals = start + wanted + past

namespace Tally

variable {start past wanted machines refusals : Nat}

/-- There is room for the machine that is asked for. -/
theorem grant (tally : Tally config start past wanted machines refusals)
    (room : machines < config.maxLive) :
    Tally config start past (wanted + 1) (machines + 1) refusals := by
  obtain ⟨count, sum⟩ := tally
  constructor <;> omega

/-- There is none. -/
theorem refuse (tally : Tally config start past wanted machines refusals)
    (some : 1 ≤ machines) (full : config.maxLive ≤ machines) :
    Tally config start past (wanted + 1) machines (refusals + 1) := by
  obtain ⟨count, sum⟩ := tally
  constructor <;> omega

/-- What has become of them when every machine has had its turn. -/
theorem total {instruction : Instruction} {forks : Nat}
    (tally : Tally config (population config forks) (refused config forks)
      (asked instruction (population config forks)) machines refusals) :
    machines = population config (forks + if instruction = .fork then 1 else 0) ∧
      refusals = refused config (forks + if instruction = .fork then 1 else 0) := by
  obtain ⟨count, sum⟩ := tally
  have le := population_le config forks
  by_cases forked : instruction = .fork
  · simp only [asked, forked, if_true] at count sum ⊢
    rw [refused_succ, population]
    omega
  · simp only [asked, forked, if_false, Nat.add_zero] at count sum ⊢
    omega

end Tally

/-- What is asked for in a turn is granted while there is room. -/
theorem Strides.tally {instruction : Instruction} {index start past turns : Nat}
    {round after : Round} (strides : Strides config instruction index round after)
    (tally : Tally config start past (asked instruction turns) (round.others + 1)
      round.ledger.refusals.size) :
    Tally config start past (asked instruction (turns + 1)) after.others
      after.ledger.refusals.size := by
  cases strides with
  | plain single stands retired same =>
      rw [same, Round.others_visit, asked, if_neg single]
      rwa [asked, if_neg single] at tally
  | forked forks room stands retired same =>
      rw [same, Round.others_visit_bear, asked, if_pos forks]
      rw [asked, if_pos forks] at tally
      exact tally.grant room
  | refused forks full stands retired more =>
      rw [more, Round.others_visit, asked, if_pos forks]
      rw [asked, if_pos forks] at tally
      exact tally.refuse (Nat.le_add_left 1 _) full

/-- A round under way that has begun with `pool`, after `moves`. Everybody is to execute the
`instruction` at `index` in it. -/
structure Marching (config : Config) (instruction : Instruction) (index : Nat) (pool : Pool)
    (moves : List Move) (round : Round) : Prop where
  waiting : ∀ machine ∈ round.waiting, machine.StandsAt index
  visited : ∀ machine ∈ round.visited, machine.StandsAt (index + 1)
  born : ∀ machine ∈ round.born, machine.StandsAt (index + 1)
  retired : round.ledger.retired = #[]
  room : moves.length + round.waiting.length = pool.registered.length
  tally : Tally config pool.registered.length pool.ledger.refusals.size
    (asked instruction moves.length) round.others round.ledger.refusals.size

/-- All machines have come to the instruction at `index`, and nobody has halted. -/
structure InStep (program : Program) (config : Config) (index : Nat) (pool : Pool) : Prop where
  stands : ∀ machine ∈ pool.registered, machine.StandsAt index
  retired : pool.ledger.retired = #[]
  population : pool.registered.length = population config (program.forksBefore index)
  refusals : pool.ledger.refusals.size = refused config (program.forksBefore index)

namespace Marching

variable {instruction : Instruction} {index : Nat} {pool : Pool} {moves : List Move}
  {machine : Machine} {round after : Round}

theorem start (inStep : InStep program config index pool) :
    Marching config instruction index pool [] (Round.start pool) where
  waiting := inStep.stands
  visited := by simp [Round.start]
  born := by simp [Round.start]
  retired := inStep.retired
  room := Nat.zero_add _
  tally := by
    have le := population_le config (program.forksBefore index)
    rw [← inStep.population] at le
    constructor
    · simpa [Round.start, Round.others, asked] using le
    · simp [Round.start, Round.others, asked]

/-- A turn moves one machine on. -/
theorem turn (found : program.instruction? index = some instruction)
    (straight : instruction.isBracket = false)
    (before : Marching config instruction index pool moves (round.putBack machine))
    (ended : round.turn program config machine = .ok after) :
    Marching config instruction index pool (moves ++ [⟨machine, round⟩]) after := by
  have turned := Round.turned program config machine round
  rw [ended] at turned
  obtain ⟨stands, waiting⟩ := List.forall_mem_cons.mp before.waiting
  have strides := turned.strides stands found straight fun change =>
    Round.retireHalted_of_live (fun other otherMem => (before.visited other otherMem).live)
      (fun other otherMem => (waiting other otherMem).live)
      (fun other otherMem => (before.born other otherMem).live)
  have tally := before.tally
  rw [Round.others_putBack] at tally
  have tallied := strides.tally tally
  have more : (moves ++ [(⟨machine, round⟩ : Move)]).length = moves.length + 1 := List.length_append
  rw [← more] at tallied
  have room : (moves ++ [(⟨machine, round⟩ : Move)]).length + round.waiting.length =
      pool.registered.length := by
    rw [more, Nat.add_right_comm]
    exact before.room
  cases strides with
  | plain single stands retired same =>
      exact ⟨waiting, List.forall_mem_cons.mpr ⟨stands, before.visited⟩, before.born,
        retired.trans before.retired, room, tallied⟩
  | forked forks few stands retired same =>
      exact ⟨waiting, List.forall_mem_cons.mpr ⟨stands.1, before.visited⟩,
        List.forall_mem_cons.mpr ⟨stands.2, before.born⟩, retired.trans before.retired, room,
        tallied⟩
  | refused forks full stands retired refusals =>
      exact ⟨waiting, List.forall_mem_cons.mpr ⟨stands, before.visited⟩, before.born,
        retired.trans before.retired, room, tallied⟩

end Marching

theorem inStep_initial (program : Program) (config : Config) (input : Input) :
    InStep program config 0 (initial config input) where
  stands machine machineMem := by
    obtain rfl := List.mem_singleton.mp machineMem
    exact ⟨rfl, rfl⟩
  retired := rfl
  population := rfl
  refusals := rfl

namespace InStep

variable {index : Nat} {pool next : Pool} {progressed : Bool}

/-- Where everybody has come to the same instruction, everybody comes to the next one in a round
without a fault. -/
theorem sweep {instruction : Instruction} (inStep : InStep program config index pool)
    (found : program.instruction? index = some instruction)
    (straight : instruction.isBracket = false)
    (swept : pool.sweep program config = (next, .ok progressed)) :
    InStep program config (index + 1) next := by
  have ends : SweepEnds program config (Marching config instruction index pool) pool
      (pool.sweep program config) :=
    sweepEnds (Marching.turn found straight) (.start inStep)
  rw [swept] at ends
  cases ends with
  | @finished round marched turned =>
      have nobody := waiting_eq_nil_of_room (Nat.le_of_eq marched.room) turned
      have room := marched.room
      rw [nobody, List.length_nil, Nat.add_zero] at room
      have stands : ∀ machine ∈ round.toPool.registered, machine.StandsAt (index + 1) := by
        simp only [Round.toPool, nobody, List.append_nil, List.forall_mem_append,
          List.mem_reverse]
        exact ⟨marched.visited, marched.born⟩
      have tally := marched.tally
      rw [room, inStep.population, inStep.refusals] at tally
      obtain ⟨count, refusals⟩ := tally.total
      rw [retireHalted_of_live fun machine machineMem => (stands machine machineMem).live]
      rw [← Program.forksBefore_succ found] at count refusals
      refine ⟨stands, marched.retired, ?_, refusals⟩
      rw [← count]
      simp [Round.toPool, Round.others, Nat.add_assoc]

theorem isDone_eq_false (inStep : InStep program config index pool) : pool.isDone = false := by
  have some : 0 < pool.registered.length := by
    rw [inStep.population]
    exact one_le_population config _
  obtain ⟨machine, machineMem⟩ := List.exists_mem_of_length_pos some
  have live := (inStep.stands machine machineMem).live
  exact List.all_eq_false.mpr ⟨machine, machineMem, by simp [live]⟩

end InStep

/-! ## A whole run -/

variable {fuel : Nat} {after : Pool}

/-- The first rounds of a run that does not end in a fault. -/
structure Begun (program : Program) (config : Config) (input : Input) (fuel : Nat) (after : Pool)
    (rounds : Nat) : Prop where
  inStep : InStep program config rounds (afterRounds program config input rounds)
  told : ∃ birth, Told program config input birth rounds
  /-- The run goes on from there. -/
  rest : ∃ rest, (afterRounds program config input rounds).run program config rest =
      some (after, .ok ()) ∧
    (initial config input).rounds program config fuel =
      (List.range rounds).map (afterRounds program config input) ++
        (afterRounds program config input rounds).rounds program config rest

/-- A run of a program without loops has as many such rounds as there are instructions. -/
theorem begun_of_run (straight : program.Straight)
    (returned : (initial config input).run program config fuel = some (after, .ok ()))
    {rounds : Nat} (within : rounds ≤ program.size) :
    Begun program config input fuel after rounds := by
  induction rounds with
  | zero =>
      exact ⟨inStep_initial program config input, ⟨_, told_initial program config input⟩, fuel,
        returned, rfl⟩
  | succ rounds ih =>
      obtain ⟨inStep, ⟨birth, told⟩, _, goesOn, played⟩ := ih (Nat.le_of_succ_le within)
      obtain ⟨rest, _, finished, goesOn, more⟩ := run_advance inStep.isDone_eq_false goesOn
      have found : program.instruction? rounds = some program.instructions[rounds] :=
        Array.getElem?_eq_getElem within
      refine ⟨inStep.sweep found (straight _ (Array.getElem_mem within)) (Prod.ext rfl finished),
        ⟨_, told.succ finished⟩, rest, goesOn, ?_⟩
      rw [played, more, List.range_succ, List.map_append, List.append_assoc]
      rfl

/-- Machines that stand behind the last instruction halt together in the last round of the run. -/
theorem InStep.last {pool : Pool} (inStep : InStep program config program.size pool)
    (returned : pool.run program config fuel = some (after, .ok ())) :
    pool.rounds program config fuel = [pool] ∧ after = (pool.sweep program config).1 ∧
      after.members = pool.registered.map Machine.halt ∧
      after.ledger.refusals = pool.ledger.refusals := by
  have idle : ∀ machine ∈ pool.registered, machine.pending program = false := by
    intro machine machineMem
    rw [(inStep.stands machine machineMem).pending_eq]
    exact decide_eq_false (Nat.lt_irrefl _)
  obtain ⟨log, progressed, swept⟩ := sweep_of_idle config idle
  obtain ⟨rest, _, _, returned, played⟩ := run_advance inStep.isDone_eq_false returned
  have empty : (pool.sweep program config).1.registered = [] := by rw [swept]
  obtain ⟨same, nothing⟩ := run_stop (isDone_of_registered_eq_nil empty) returned
  rw [nothing] at played
  refine ⟨played, same, ?_, ?_⟩
  · rw [same, swept]
    simp [members, inStep.retired]
  · rw [same, swept]

/-- In the first rounds of a run everybody has a turn at the instruction that is due. -/
theorem Begun.stands {rounds : Nat} (begun : Begun program config input fuel after rounds)
    {move : Move}
    (moveMem : move ∈ (afterRounds program config input rounds).moves program config) :
    move.machine.StandsAt rounds := by
  obtain ⟨inStep, ⟨birth, told⟩, rest, returned, _⟩ := begun
  obtain ⟨_, _, finished, _⟩ := run_advance inStep.isDone_eq_false returned
  have played := played_sweep told.paced.tidy (Prod.ext rfl finished)
  exact inStep.stands _ (played.order ▸ List.mem_map_of_mem moveMem)

namespace InStep

variable {birth : Nat → Nat} {rounds : Nat}

theorem members_eq {index : Nat} {pool : Pool} (inStep : InStep program config index pool) :
    pool.members = pool.registered := by
  simp [members, inStep.retired]

/-- Nobody has missed a round since its birth. -/
theorem birth_add_steps
    (inStep : InStep program config rounds (afterRounds program config input rounds))
    (told : Told program config input birth rounds) {machine : Machine}
    (machineMem : machine ∈ (afterRounds program config input rounds).registered) :
    birth machine.id + machine.steps = rounds :=
  (told.paced.inPace machine (inStep.members_eq ▸ machineMem)).live
    (inStep.stands machine machineMem).live

/-- Whoever was born in one of so many rounds has executed an instruction in all later ones. -/
theorem exists_of_born
    (inStep : InStep program config rounds (afterRounds program config input rounds))
    (told : Told program config input birth rounds) {round id : Nat} (round_le : round ≤ rounds)
    (born : Born program config input id round) :
    ∃ machine ∈ (afterRounds program config input rounds).registered,
      machine.id = id ∧ machine.steps = rounds - round := by
  rcases Nat.lt_or_ge id (afterRounds program config input rounds).ledger.nextId with
    known | unknown
  · have idMem : id ∈ (afterRounds program config input rounds).machines.map Machine.id := by
      rw [machines_ids told.paced.ordered.tells]
      exact List.mem_range.mpr known
    obtain ⟨machine, machineMem, rfl⟩ := List.mem_map.mp idMem
    rw [(machines_perm_members _).mem_iff, inStep.members_eq] at machineMem
    have steps := inStep.birth_add_steps told machineMem
    rw [← (told.born _ known round round_le).mp born] at steps
    exact ⟨machine, machineMem, rfl, (Nat.sub_eq_of_eq_add' steps.symm).symm⟩
  · exact absurd born (told.unborn id unknown round round_le)

/-- Every machine but the first was forked off in one of the rounds. -/
theorem origin
    (inStep : InStep program config rounds (afterRounds program config input rounds))
    (told : Told program config input birth rounds) {machine : Machine}
    (machineMem : machine ∈ (afterRounds program config input rounds).registered) :
    machine.id = 0 ∧ machine.steps = rounds ∨ ∃ round < rounds,
      ∃ move ∈ (afterRounds program config input round).moves program config,
        move.child? program config = some machine.id := by
  have known := told.paced.id_lt (inStep.members_eq ▸ machineMem)
  have birth_le := told.paced.birth_le _ known
  have born := (told.born _ known _ birth_le).mpr rfl
  have steps := inStep.birth_add_steps told machineMem
  cases birth_eq : birth machine.id with
  | zero =>
      rw [birth_eq] at born steps
      exact .inl ⟨born, (Nat.zero_add _).symm.trans steps⟩
  | succ round =>
      rw [birth_eq] at born birth_le
      exact .inr ⟨round, birth_le, born⟩

end InStep

/-- Whoever is forked off in a turn executes the instructions behind the `fork`, one in each of the
rounds that follow. -/
theorem Begun.exists_of_child? {rounds last : Nat} {birth : Nat → Nat}
    (begun : Begun program config input fuel after rounds) {move : Move} {child : Nat}
    (moveMem : move ∈ (afterRounds program config input rounds).moves program config)
    (forks : move.child? program config = some child)
    (inStep : InStep program config last (afterRounds program config input last))
    (told : Told program config input birth last) (later : move.machine.ip < last) :
    ∃ machine ∈ (afterRounds program config input last).registered,
      machine.id = child ∧ machine.steps = last - move.machine.ip - 1 := by
  rw [(begun.stands moveMem).ip] at later ⊢
  exact inStep.exists_of_born told later ⟨move, moveMem, forks⟩

/-- How a program without loops runs. -/
structure LockStep (program : Program) (config : Config) (input : Input) (fuel : Nat)
    (after : Pool) : Prop where
  /-- There are as many rounds as instructions, and one more. -/
  rounds : (initial config input).rounds program config fuel =
    (List.range (program.size + 1)).map (afterRounds program config input)
  last : after = afterRounds program config input (program.size + 1)
  /-- After every round but the last all machines run and have come to the same instruction. -/
  together : ∀ rounds ≤ program.size,
    ∀ machine ∈ (afterRounds program config input rounds).machines, machine.StandsAt rounds
  /-- In the last round all of them halt. -/
  halted : ∀ result ∈ after.report.results, result.halted = true
  results : after.report.results.length = min (2 ^ program.forkCount) (max 1 config.maxLive)
  /-- A machine that is forked off executes every instruction behind the `fork`. -/
  steps : ∀ pool ∈ (initial config input).rounds program config fuel,
    ∀ move ∈ pool.moves program config, ∀ child, move.child? program config = some child →
      program.instruction? move.machine.ip = some .fork ∧
        ∃ result, after.report.find? child = some result ∧
          result.steps = program.size - move.machine.ip - 1
  /-- The others have been forked off, and the first machine executes every instruction. -/
  origin : ∀ result ∈ after.report.results, result.id = 0 ∧ result.steps = program.size ∨
    ∃ pool ∈ (initial config input).rounds program config fuel,
      ∃ move ∈ pool.moves program config, move.child? program config = some result.id
  refusals : after.report.refusals.length = ∑ fork ∈ range program.forkCount,
    (2 * population config fork - population config (fork + 1))

/-- A run of a program without loops that does not end in a fault goes in lock-step, whatever the
input and the budget. -/
theorem lockStep_of_run {program : Program} {config : Config} {input : Input} {fuel : Nat}
    {after : Pool} (straight : program.Straight)
    (returned : (initial config input).run program config fuel = some (after, .ok ())) :
    LockStep program config input fuel after := by
  have begun {rounds : Nat} (within : rounds ≤ program.size) :
      Begun program config input fuel after rounds := begun_of_run straight returned within
  obtain ⟨inStep, ⟨birth, told⟩, rest, goesOn, played⟩ := begun (Nat.le_refl program.size)
  obtain ⟨last, same, members, refusals⟩ := inStep.last goesOn
  rw [last, ← List.map_singleton, ← List.map_append, ← List.range_succ] at played
  have tells := tells_of_reachable (.run .initial returned)
  have resultOf {result : Machine.Result} (resultMem : result ∈ after.report.results) :
      ∃ machine ∈ (afterRounds program config input program.size).registered,
        machine.halt.result = result := by
    simpa [mem_results_iff, members] using resultMem
  constructor
  case rounds =>
    exact played
  case last =>
    exact same
  case together =>
    intro rounds within machine machineMem
    rw [(machines_perm_members _).mem_iff, (begun within).inStep.members_eq] at machineMem
    exact (begun within).inStep.stands machine machineMem
  case halted =>
    intro result resultMem
    obtain ⟨machine, _, rfl⟩ := resultOf resultMem
    rfl
  case results =>
    rw [report, List.length_map, (machines_perm_members after).length_eq, members, List.length_map,
      inStep.population, Program.forksBefore_size, population_eq]
  case steps =>
    intro pool poolMem move moveMem child forks
    rw [played] at poolMem
    obtain ⟨rounds, rounds_lt, rfl⟩ := List.mem_map.mp poolMem
    have found := Move.found_of_child? forks
    obtain ⟨machine, machineMem, rfl, steps⟩ :=
      (begun (Nat.le_of_lt_succ (List.mem_range.mp rounds_lt))).exists_of_child? moveMem forks
        inStep told (program.lt_size_of_instruction? found)
    have haltMem : machine.halt ∈ after.members := members ▸ List.mem_map_of_mem machineMem
    exact ⟨found, machine.halt.result, find?_report tells haltMem, steps⟩
  case origin =>
    intro result resultMem
    obtain ⟨machine, machineMem, rfl⟩ := resultOf resultMem
    rw [played]
    apply (inStep.origin told machineMem).imp_right
    rintro ⟨round, round_lt, forks⟩
    have roundMem := List.mem_range.mpr (Nat.lt_succ_of_lt round_lt)
    exact ⟨_, List.mem_map_of_mem roundMem, forks⟩
  case refusals =>
    have count := inStep.refusals
    rw [Program.forksBefore_size] at count
    rw [report, refusals, Array.length_toList, count, refused]

/-- With room for three machines one of the two that ask for another one at the second `fork` is
refused. -/
theorem forkTwice_lockStep :
    forkTwice.Straight ∧ ∃ after,
      (initial { maxLive := 3 } ⟨[]⟩).run forkTwice { maxLive := 3 } 4 = some (after, .ok ()) ∧
      LockStep forkTwice { maxLive := 3 } ⟨[]⟩ 4 after ∧
      after.report.results.length = 3 ∧ after.report.refusals.length = 1 := by
  have straight : forkTwice.Straight := by
    intro instruction instructionMem
    simp only [forkTwice, List.mem_toArray] at instructionMem
    revert instruction
    decide
  have lockStep : LockStep forkTwice { maxLive := 3 } ⟨[]⟩ 4 _ := lockStep_of_run straight rfl
  exact ⟨straight, _, rfl, lockStep, lockStep.results, lockStep.refusals⟩

end Pool

end ForkTape
