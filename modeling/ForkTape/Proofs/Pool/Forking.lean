import ForkTape.Proofs.Pool.AfterTurn
import ForkTape.Proofs.Pool.LiveBudget

/-!
# What a fork does

A machine that comes to a `fork` with room for another machine becomes two: it goes on with a
marker in its scanned cell, and a copy of it with a zero there joins the registry behind everybody
else. The two share what was left of its input. Without room it goes on as if the `fork` were not
there, and the refusal is recorded. `Machine.Begets` is what the one case makes of the machine,
`Pool.Replaces` what both do to the pool, where nobody else changes.

The marker tells the children of a machine apart as far as a byte can: it repeats after 255 ids
(`Machine.forkMarker_eq_iff`).
-/

namespace ForkTape

namespace Machine

theorem toNat_forkMarker (child : Nat) : (forkMarker child).toNat = (child - 1) % 255 + 1 := by
  rw [forkMarker, UInt8.toNat_ofNat']
  omega

/-- Markers repeat after 255 ids, and not before. -/
theorem forkMarker_eq_iff {child other : Nat} (childPos : 1 ≤ child) (otherPos : 1 ≤ other) :
    forkMarker other = forkMarker child ↔ other % 255 = child % 255 := by
  rw [← UInt8.toNat_inj, toNat_forkMarker, toNat_forkMarker]
  omega

/-- A machine has forked: it has become `parent`, beside its child `newborn`. -/
structure Begets (split : Input.Split) (machine parent newborn : Machine) : Prop where
  parent_eq : parent = { machine with
    children := machine.children.push newborn.id
    tape := parent.tape
    ip := machine.ip + 1
    input := parent.input
    steps := machine.steps + 1 }
  newborn_eq : newborn =
    { id := newborn.id
      parent := some machine.id
      children := #[]
      tape := newborn.tape
      ip := machine.ip + 1
      input := newborn.input
      output := #[]
      halted := false
      steps := 0 }
  parent_position : parent.tape.position = machine.tape.position
  parent_cells : parent.tape.cells =
    machine.tape.cells.set machine.tape.position (forkMarker newborn.id)
  newborn_position : newborn.tape.position = machine.tape.position
  newborn_cells : newborn.tape.cells = machine.tape.cells.set machine.tape.position 0
  shares : (parent.input, newborn.input) = machine.input.split split
  unread : parent.input.unread ++ newborn.input.unread = machine.input.unread

/-- Carrying out a `fork` that has been counted is forking. -/
theorem begets_fork (child : Nat) (split : Input.Split) (machine : Machine) :
    Begets split machine (machine.count.fork child split).1 (machine.count.fork child split).2 where
  parent_eq := rfl
  newborn_eq := rfl
  parent_position := rfl
  parent_cells := Tape.cells_write _ _
  newborn_position := rfl
  newborn_cells := Tape.cells_write _ _
  shares := rfl
  unread := Input.split_append _ _

end Machine

namespace Pool

/-- The machine `machine` of a pool has become `next`, and `more` have joined the registry behind
everybody else, while machines that had halted have left it. Nobody else has changed. -/
structure Replaces (before after : Pool) (machine next : Machine) (more : List Machine) :
    Prop where
  registered : ∃ earlier later,
    (before.registered.filter fun other => !other.halted) = earlier ++ machine :: later ∧
      after.registered = earlier ++ next :: later ++ more
  retired : after.ledger.retired.toList.Perm
    (before.ledger.retired.toList ++ before.registered.filter Machine.halted)
  members : ∃ others, before.members.Perm (machine :: others) ∧
    after.members.Perm (next :: (more ++ others))

/-- The `fork` that the machine comes to in the turn is carried out: the machine becomes `parent`,
and `newborn` is added. -/
structure Move.CarriesOut (program : Program) (config : Config) (move : Move)
    (parent newborn : Machine) : Prop where
  begets : move.machine.Begets config.inputSplit parent newborn
  id : newborn.id = move.before.ledger.nextId
  /-- The child has an id of its own. -/
  fresh : ∀ other ∈ move.before.members, other.id < newborn.id
  marker : (Machine.forkMarker newborn.id).toNat = (newborn.id - 1) % 255 + 1
  marker_ne_zero : Machine.forkMarker newborn.id ≠ 0
  /-- Other children are marked differently, unless their ids agree modulo 255. -/
  marker_eq_iff : ∀ other, 1 ≤ other →
    (Machine.forkMarker other = Machine.forkMarker newborn.id ↔ other % 255 = newborn.id % 255)
  replaces : move.before.Replaces (move.after program config) move.machine parent [newborn]
  nextId : (move.after program config).ledger.nextId = move.before.ledger.nextId + 1
  refusals : (move.after program config).ledger.refusals = move.before.ledger.refusals

/-- The `fork` that the machine comes to in the turn is refused: the machine becomes `next`. -/
structure Move.Refuses (program : Program) (config : Config) (move : Move) (next : Machine) :
    Prop where
  next_eq : next =
    { move.machine with ip := move.machine.ip + 1, steps := move.machine.steps + 1 }
  replaces : move.before.Replaces (move.after program config) move.machine next []
  nextId : (move.after program config).ledger.nextId = move.before.ledger.nextId
  refusals : (move.after program config).ledger.refusals = move.before.ledger.refusals.push
    ⟨move.machine.id, move.machine.ip, move.before.running, config.maxLive⟩

variable {program : Program} {config : Config} {input : Input} {pool : Pool}

namespace Round

variable {machine : Machine} {round : Round}

/-- The round in which the `fork` of a machine is resolved, after the machine has counted it. -/
def resolving (round : Round) : Round := (round.book Ledger.countStep).progress.retireHalted

/-- A machine whose limits admit it comes to the resolving of its `fork`. -/
theorem turn_eq_resolveFork (live : machine.halted = false)
    (found : program.instruction? machine.ip = some .fork)
    (globally : config.maxGlobalSteps.reached? round.ledger.globalSteps = none)
    (admitted : config.machine.maxSteps.reached? machine.steps = none) :
    round.turn program config machine =
      .ok (resolveFork config machine.count (round.book Ledger.countStep).progress) := by
  have executed : machine.exec program config.machine = ⟨machine.count, .ok .atFork, none⟩ :=
    Machine.exec_eq_perform live found admitted
  simp only [turn, live, globally, executed]
  simp [Ledger.recordAny, book, progress]

/-- The live machines of the registry when a turn comes up, in order. -/
theorem live_registered_putBack (live : machine.halted = false) :
    ((round.putBack machine).toPool.registered.filter fun other => !other.halted) =
      round.resolving.visited.reverse ++
        machine :: (round.resolving.waiting ++ round.resolving.born.reverse) := by
  simp [toPool, putBack, resolving, retireHalted, book, progress, live, List.filter_append,
    List.filter_reverse]

/-- Those who have halted leave the registry before a `fork` is resolved. -/
theorem retired_resolving (live : machine.halted = false) :
    round.resolving.ledger.retired.toList.Perm
      ((round.putBack machine).toPool.ledger.retired.toList ++
        (round.putBack machine).toPool.registered.filter Machine.halted) := by
  simp only [resolving, retireHalted, book, progress, Ledger.countStep, Ledger.retire, toPool,
    putBack, Array.toList_appendList, List.filter_append, List.filter_reverse, List.append_assoc,
    List.filter_cons, live]
  apply List.Perm.append_left
  refine (List.reverse_perm _).symm.append (List.Perm.append_left _ (List.reverse_perm _).symm)

/-- The machine that asks and the others that the registry then holds are those that run. -/
theorem others_resolving (live : machine.halted = false)
    (retired : (round.putBack machine).toPool.RetiredHalted) :
    round.resolving.others + 1 = (Move.before ⟨machine, round⟩).running := by
  have others : round.resolving.others = countLive round.members := others_retireHalted retired
  rw [others, Move.running_before, countLive_cons, live]
  rfl

/-- What becomes of a pool when a `fork` has been resolved and the machine has become `next`. -/
theorem replaces_of_resolved {after : Round} {next : Machine} {more : List Machine}
    (live : machine.halted = false)
    (visited : after.visited = next :: round.resolving.visited)
    (waiting : after.waiting = round.resolving.waiting)
    (born : after.born = more.reverse ++ round.resolving.born)
    (retired : after.ledger.retired = round.resolving.ledger.retired) :
    Replaces (round.putBack machine).toPool after.toPool machine next more where
  registered := by
    refine ⟨_, _, live_registered_putBack live, ?_⟩
    simp [toPool, visited, waiting, born]
  retired := by
    change after.ledger.retired.toList.Perm _
    rw [retired]
    exact retired_resolving live
  members := by
    refine ⟨round.members, members_toPool_putBack machine round, ?_⟩
    have stay : round.resolving.members.Perm round.members := members_retireHalted _
    apply (members_toPool after).trans
    rw [members, visited, waiting, born, retired]
    apply List.Perm.trans _ ((stay.append_left more).cons next)
    rw [List.perm_iff_count]
    intro other
    simp only [members, List.count_append, List.count_cons, List.count_reverse]
    omega

end Round

namespace Move

variable {machine : Machine} {round after : Round}

/-- What a turn without a fault leaves. -/
theorem after_eq_of_ok (turned : round.turn program config machine = .ok after) :
    Move.after program config ⟨machine, round⟩ = after.toPool := by
  rw [Move.after, result, turned, Round.left]

/-- A `fork` that is carried out. -/
theorem carriesOut_of_room (live : machine.halted = false)
    (tells : (before ⟨machine, round⟩).ledger.Tells (before ⟨machine, round⟩).members)
    (turned : round.turn program config machine = .ok (((round.resolving.book
      (·.bookFork machine.count.id (round.resolving.others + 2))).bear
      (machine.count.fork round.resolving.ledger.nextId config.inputSplit).2).visit
      (machine.count.fork round.resolving.ledger.nextId config.inputSplit).1)) :
    CarriesOut program config ⟨machine, round⟩
      (machine.count.fork round.ledger.nextId config.inputSplit).1
      (machine.count.fork round.ledger.nextId config.inputSplit).2 := by
  have left := after_eq_of_ok turned
  have one_le : 1 ≤ round.ledger.nextId := by
    have forks := tells.forks
    simp only [before, Round.toPool, Round.putBack] at forks
    omega
  constructor
  · exact Machine.begets_fork _ _ _
  · rfl
  · exact fun other otherMem => tells.id_lt otherMem
  · exact Machine.toNat_forkMarker _
  · exact Machine.forkMarker_ne_zero _
  · exact fun other otherPos => Machine.forkMarker_eq_iff one_le otherPos
  · rw [left]
    exact Round.replaces_of_resolved live rfl rfl rfl rfl
  · rw [left]
    rfl
  · rw [left]
    rfl

/-- A `fork` that is refused. -/
theorem refuses_of_full (live : machine.halted = false)
    (running : round.resolving.others + 1 = (before ⟨machine, round⟩).running)
    (turned : round.turn program config machine = .ok ((round.resolving.book (·.bookRefusal
      ⟨machine.count.id, machine.count.ip, round.resolving.others + 1, config.maxLive⟩)).visit
      machine.count.passFork)) :
    Refuses program config ⟨machine, round⟩ machine.count.passFork := by
  have left := after_eq_of_ok turned
  constructor
  · rfl
  · rw [left]
    exact Round.replaces_of_resolved live rfl rfl rfl rfl
  · rw [left]
    rfl
  · rw [left, ← running]
    rfl

end Move

/-- Whatever rounds and runs have led to a pool, in the next round a machine whose limits admit it
forks when there is room for another machine, and moves on when there is not. One instruction has
then been executed, and what the turn leaves of the machine and its child the round leaves of
them. -/
theorem fork_effect (reachable : Reachable program config input pool) {move : Move}
    (moveMem : move ∈ pool.moves program config) (live : move.machine.halted = false)
    (found : program.instruction? move.machine.ip = some .fork)
    (globally : config.maxGlobalSteps.reached? move.before.ledger.globalSteps = none)
    (admitted : config.machine.maxSteps.reached? move.machine.steps = none) :
    move.machine ∈ pool.registered ∧
    (move.before.running < config.maxLive → ∃ parent newborn,
      move.CarriesOut program config parent newborn ∧
        parent ∈ (pool.sweep program config).1.members ∧
        newborn ∈ (pool.sweep program config).1.members) ∧
    (config.maxLive ≤ move.before.running → ∃ next,
      move.Refuses program config next ∧ next ∈ (pool.sweep program config).1.members) ∧
    (move.after program config).ledger.globalSteps = move.before.ledger.globalSteps + 1 := by
  have tells := (tells_kept program config).before (tells_of_reachable reachable) move moveMem
  have retired := (retiredHalted_kept program config).before
    (retiredHalted_of_reachable reachable) move moveMem
  have registered := machine_mem_of_mem_moves move moveMem
  rcases move with ⟨machine, round⟩
  have turned : round.turn program config machine = _ :=
    Round.turn_eq_resolveFork live found globally admitted
  have running := Round.others_resolving live retired
  have resolved : Round.Resolved config machine.count round.resolving _ :=
    Round.resolved config machine.count (round.book Ledger.countStep).progress
  generalize Round.resolveFork config machine.count _ = after at turned resolved
  have stays {other : Machine} (visited : other ∈ after.visited ++ after.born) :
      other ∈ (pool.sweep program config).1.members :=
    mem_members_sweep moveMem turned (List.mem_append_right _ visited)
  refine ⟨registered, ?_, ?_, ?_⟩
  · intro room
    cases resolved with
    | forked _ =>
        exact ⟨_, _, Move.carriesOut_of_room live tells turned,
          stays (List.mem_append_left _ List.mem_cons_self),
          stays (List.mem_append_right _ List.mem_cons_self)⟩
    | refused full => exact absurd (running ▸ full) (Nat.not_le.mpr room)
  · intro full
    cases resolved with
    | forked room => exact absurd (running ▸ room) (Nat.not_lt.mpr full)
    | refused _ =>
        exact ⟨_, Move.refuses_of_full live running turned,
          stays (List.mem_append_left _ List.mem_cons_self)⟩
  · rw [Move.after_eq_of_ok turned]
    exact resolved.globalSteps_eq

/-- With room for two machines, the first machine forks in the first round, and in the next one it
comes to a `fork` that is refused. -/
theorem forkTwice_fork_effect :
    (∃ move ∈ (initial { maxLive := 2 } ⟨[]⟩).moves forkTwice { maxLive := 2 },
      ∃ parent newborn, move.CarriesOut forkTwice { maxLive := 2 } parent newborn ∧
        newborn.id = 1) ∧
    ∃ pool, Reachable forkTwice { maxLive := 2 } ⟨[]⟩ pool ∧
      ∃ move ∈ pool.moves forkTwice { maxLive := 2 }, ∃ next,
        move.Refuses forkTwice { maxLive := 2 } next ∧ next.steps = 2 := by
  constructor
  · have reachable : Reachable forkTwice { maxLive := 2 } ⟨[]⟩ _ := .initial
    obtain ⟨_, carriesOut, _⟩ := fork_effect reachable List.mem_cons_self rfl rfl rfl rfl
    obtain ⟨parent, newborn, carried, _⟩ :=
      carriesOut (by rw [Move.running_before]; decide +kernel)
    exact ⟨_, List.mem_cons_self, parent, newborn, carried, carried.id⟩
  · have reachable : Reachable forkTwice { maxLive := 2 } ⟨[]⟩ _ := .sweep .initial
    obtain ⟨_, _, refuses, _⟩ := fork_effect reachable List.mem_cons_self rfl rfl rfl rfl
    obtain ⟨next, refused, _⟩ := refuses (by rw [Move.running_before]; decide +kernel)
    refine ⟨_, reachable, _, List.mem_cons_self, next, refused, ?_⟩
    rw [refused.next_eq]
    rfl

end Pool

end ForkTape
