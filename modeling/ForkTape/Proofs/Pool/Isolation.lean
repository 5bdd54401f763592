import ForkTape.Proofs.Machine.Lives
import ForkTape.Proofs.Pool.Heirs
import ForkTape.Proofs.Pool.History
import ForkTape.Proofs.Pool.Lineage

/-!
# Isolation

Machines do not get in each other's way. Of all that happens in the rounds of a pool, a machine
notices only what becomes of its own `fork`s: the states in which it comes to its turns are those
that it goes through by itself when it meets the same verdicts (`Lived`).

A turn puts a successor in the place of the machine that has it, adds the machine that is forked
off, and leaves all other machines as they are (`Move.members_after`). From this the life of every
machine is followed turn by turn through a history (`lived_recorded`).
-/

namespace ForkTape.Pool

open Machine (Lives)

namespace Move

/-- The pool when the turn comes up. -/
def before (move : Move) : Pool := (move.round.putBack move.machine).toPool

/-- The pool that the turn leaves. -/
def after (program : Program) (config : Config) (move : Move) : Pool :=
  (Round.left (move.result program config)).toPool

/-- Whether the machine has executed in the turn, if only to halt or to fault. A halted machine has
not, and nor has one that the global limit has stopped. -/
def acts (program : Program) (config : Config) (move : Move) : Bool :=
  match move.result program config with
  | .error (.globalStepLimit _, _) => false
  | _ => !move.machine.halted

/-- What has become of the `fork` that the machine has executed in the turn. -/
def verdict? (program : Program) (config : Config) (move : Move) : Option Verdict :=
  if move.executed? program config = some .fork then
    match move.child? program config with
    | some child => some (.forked child)
    | none => some .refused
  else none

/-- The machine that has been forked off in the turn. -/
def newborn? (program : Program) (config : Config) (move : Move) : Option Machine :=
  (move.child? program config).map fun child =>
    ((move.machine.exec program config.machine).machine.fork child config.inputSplit).2

/-- What the turn has made of the machine. -/
def successor (program : Program) (config : Config) (move : Move) : Machine :=
  if move.acts program config then
    (move.machine.exec program config.machine).settle config.inputSplit
      (move.verdict? program config)
  else move.machine

end Move

/-- The turns in which the machine `id` has executed. -/
def turnsOf (program : Program) (config : Config) (id : Nat) (moves : List Move) : List Move :=
  moves.filter fun move => move.machine.id == id && move.acts program config

/-- What has become of the `fork`s that the machine `id` has come to, one after the other. -/
def verdictsOf (program : Program) (config : Config) (id : Nat) (moves : List Move) :
    List Verdict :=
  (turnsOf program config id moves).filterMap (Move.verdict? program config)

/-- The states in which a machine has come to its turns, and what it is now. -/
def statesOf (program : Program) (config : Config) (machine : Machine) (moves : List Move) :
    List Machine :=
  (turnsOf program config machine.id moves).map Move.machine ++ [machine]

/-- The states in which machines come into being. -/
inductive Begins (program : Program) (config : Config) (input : Input) (moves : List Move) :
    Machine → Prop
  | first : Begins program config input moves (Machine.initial config.machine input)
  | forked {move : Move} {newborn : Machine} (moveMem : move ∈ moves)
      (born : move.newborn? program config = some newborn) :
      Begins program config input moves newborn

/-- The machine has come into being as `start`. Since then it has gone, in its turns among `moves`,
through what it goes through by itself. -/
structure Lived (program : Program) (config : Config) (input : Input) (moves : List Move)
    (start machine : Machine) : Prop where
  begins : Begins program config input moves start
  id : start.id = machine.id
  lives : Lives program config.machine config.inputSplit start
    (verdictsOf program config machine.id moves)
    ((turnsOf program config machine.id moves).map Move.machine) machine

variable {program : Program} {config : Config} {input : Input}

/-! ## What a turn leaves -/

namespace Move

/-- What a turn leaves, told by what the machine does by itself. -/
structure Settles (program : Program) (config : Config) (move : Move) : Prop where
  members : (move.after program config).members.Perm
    (move.successor program config ::
      ((move.newborn? program config).toList ++ move.round.members))
  /-- A machine that executes meets a verdict when it comes to a `fork`. -/
  due : move.acts program config = true →
    ((move.verdict? program config).isSome = true ↔
      (move.machine.exec program config.machine).outcome = .ok .atFork)

variable {machine : Machine} {round : Round}

/-- A `fork` is carried out when the next id is given away. -/
theorem verdict?_eq_forked (forks : executed? program config ⟨machine, round⟩ = some .fork)
    (grown : (Round.left (round.turn program config machine)).ledger.nextId + 1 =
      round.ledger.nextId + 2) :
    verdict? program config ⟨machine, round⟩ = some (.forked round.ledger.nextId) := by
  rw [verdict?, if_pos forks, child?_eq_some grown]

/-- A `fork` is refused when the next id stays. -/
theorem verdict?_eq_refused (forks : executed? program config ⟨machine, round⟩ = some .fork)
    (same : (Round.left (round.turn program config machine)).ledger.nextId + 1 =
      round.ledger.nextId + 1) :
    verdict? program config ⟨machine, round⟩ = some .refused := by
  rw [verdict?, if_pos forks, child?_eq_none same]

/-- A turn in which the machine does not execute changes no machine. -/
theorem settles_of_idle (idle : acts program config ⟨machine, round⟩ = false)
    (single : child? program config ⟨machine, round⟩ = none)
    (members : (after program config ⟨machine, round⟩).members.Perm (machine :: round.members)) :
    Settles program config ⟨machine, round⟩ where
  members := by
    rw [successor, idle, newborn?, single]
    exact members
  due active := by
    rw [idle] at active
    contradiction

/-- A turn in which the machine executes anything but a `fork` changes this machine. -/
theorem settles_of_executed {next : Machine} {outcome : Except Fault Machine.Progress}
    {event? : Option Event}
    (active : acts program config ⟨machine, round⟩ = true)
    (executed : machine.exec program config.machine = ⟨next, outcome, event?⟩)
    (elsewhere : outcome ≠ .ok .atFork)
    (plain : executed? program config ⟨machine, round⟩ ≠ some .fork)
    (single : child? program config ⟨machine, round⟩ = none)
    (members : (after program config ⟨machine, round⟩).members.Perm (next :: round.members)) :
    Settles program config ⟨machine, round⟩ := by
  have unresolved : verdict? program config ⟨machine, round⟩ = none := if_neg plain
  constructor
  · rw [successor, active, newborn?, single, unresolved, executed]
    exact members
  · intro _
    simp [unresolved, executed, elsewhere]

/-- What the turn of a machine that comes to a `fork` leaves. -/
theorem settles_of_resolved {next : Machine} {event? : Option Event} {resolving afterwards : Round}
    (result : round.turn program config machine = .ok afterwards)
    (live : machine.halted = false)
    (executed : machine.exec program config.machine = ⟨next, .ok .atFork, event?⟩)
    (found : program.instruction? machine.ip = some .fork)
    (nextId : resolving.ledger.nextId = round.ledger.nextId)
    (others : resolving.members.Perm round.members)
    (resolved : Round.Resolved config next resolving afterwards) :
    Settles program config ⟨machine, round⟩ := by
  have active : acts program config ⟨machine, round⟩ = true := by
    simp [acts, Move.result, result, live]
  have ended : Round.fault? (round.turn program config machine) = none := by rw [result]; rfl
  have forks : executed? program config ⟨machine, round⟩ = some .fork :=
    (executed?_eq_instruction? ended live).trans found
  cases resolved with
  | forked room =>
      have grown : (Round.left (round.turn program config machine)).ledger.nextId + 1 =
          round.ledger.nextId + 2 := by
        rw [result, ← nextId]
        rfl
      have child := child?_eq_some grown
      have verdict := verdict?_eq_forked forks grown
      constructor
      · rw [successor, active, newborn?, child, verdict, executed, after, Move.result, result]
        apply (Round.members_toPool _).trans
        apply (Round.members_visit_bear_book rfl _ _).trans
        rw [nextId]
        exact (others.cons _).cons _
      · intro _
        simp [verdict, executed]
  | refused full =>
      have same : (Round.left (round.turn program config machine)).ledger.nextId + 1 =
          round.ledger.nextId + 1 := by
        rw [result, ← nextId]
        rfl
      have single := child?_eq_none same
      have verdict := verdict?_eq_refused forks same
      constructor
      · rw [successor, active, newborn?, single, verdict, executed, after, Move.result, result]
        apply (Round.members_toPool _).trans
        exact (Round.members_visit_book rfl _).trans (others.cons _)
      · intro _
        simp [verdict, executed]

/-- What every turn leaves. -/
theorem settles (program : Program) (config : Config) (move : Move) :
    Settles program config move := by
  rcases move with ⟨machine, round⟩
  have turned := Round.turned program config machine round
  generalize result : round.turn program config machine = outcome at turned
  cases turned with
  | rested halted =>
      apply settles_of_idle
      · simp [acts, Move.result, result, halted]
      · exact child?_eq_none (by rw [result]; rfl)
      · rw [after, Move.result, result]
        exact (Round.members_toPool _).trans (Round.members_visit _ _)
  | stopped live pending reached =>
      apply settles_of_idle
      · simp [acts, Move.result, result]
      · exact child?_eq_none (by rw [result]; rfl)
      · rw [after, Move.result, result]
        exact (Round.members_toPool _).trans (Round.members_putBack _ _)
  | @faulted next fault event? live admitted executed =>
      apply settles_of_executed _ executed (by simp)
      · exact executed?_ne_fork (by simp [executed])
      · exact child?_eq_none (by rw [result]; cases event? <;> rfl)
      · rw [after, Move.result, result]
        exact (Round.members_toPool _).trans
          (Round.members_putBack_book (Ledger.retired_recordAny _ _) next)
      · cases Machine.executes_of_exec executed with
        | limited live found reached => simp [acts, Move.result, result, live]
        | rejected live found admitted last => simp [acts, Move.result, result, live]
  | @advanced next event? live admitted executed
  | @halted next event? live admitted executed =>
      apply settles_of_executed _ executed (by simp)
      · exact executed?_ne_fork (by simp [executed])
      · exact child?_eq_none (by rw [result]; cases event? <;> rfl)
      · rw [after, Move.result, result]
        exact (Round.members_toPool _).trans
          (Round.members_visit_book (Ledger.retired_recordAny _ _) next)
      · simp [acts, Move.result, result, live]
  | @atFork next event? afterwards live admitted executed resolved =>
      cases Machine.executes_of_exec executed with
      | reachedFork live found admitted =>
          refine settles_of_resolved result live executed found ?_ ?_ resolved
          · rfl
          · exact Round.members_retireHalted _

end Move

/-! ## The turns of a machine -/

theorem turnsOf_append (id : Nat) (past : List Move) (move : Move) :
    turnsOf program config id (past ++ [move]) =
      turnsOf program config id past ++
        if move.machine.id = id ∧ move.acts program config = true then [move] else [] := by
  simp [turnsOf, List.filter_append, List.filter_cons]

theorem turnsOf_own {move : Move} (active : move.acts program config = true)
    (past : List Move) :
    turnsOf program config move.machine.id (past ++ [move]) =
      turnsOf program config move.machine.id past ++ [move] := by
  rw [turnsOf_append, if_pos ⟨rfl, active⟩]

theorem verdictsOf_own {move : Move} (active : move.acts program config = true)
    (past : List Move) :
    verdictsOf program config move.machine.id (past ++ [move]) =
      verdictsOf program config move.machine.id past ++
        (move.verdict? program config).toList := by
  rw [verdictsOf, turnsOf_own active, List.filterMap_append, verdictsOf]
  cases verdict : move.verdict? program config <;> simp [verdict]

/-- A turn of another machine, or one in which nobody executes, is none of this machine. -/
theorem turnsOf_other {id : Nat} {move : Move}
    (other : move.machine.id = id → move.acts program config = false) (past : List Move) :
    turnsOf program config id (past ++ [move]) = turnsOf program config id past := by
  rw [turnsOf_append, if_neg, List.append_nil]
  rintro ⟨own, active⟩
  rw [other own] at active
  contradiction

/-- A machine whose id is new has had no turn. -/
theorem turnsOf_eq_nil {id : Nat} {moves : List Move}
    (unborn : ∀ move ∈ moves, move.machine.id ≠ id) : turnsOf program config id moves = [] := by
  rw [turnsOf, List.filter_eq_nil_iff]
  intro move moveMem
  simp [unborn move moveMem]

theorem Move.id_successor (move : Move) : (move.successor program config).id = move.machine.id := by
  have kin := (Machine.executes program config.machine move.machine).kin_eq
  have executed : (move.machine.exec program config.machine).machine.id = move.machine.id :=
    congrArg Machine.Kin.id kin
  rw [successor]
  split
  · rcases move.verdict? program config with _ | verdict
    · exact executed
    · cases verdict <;> exact executed
  · rfl

theorem Move.id_newborn {move : Move} {newborn : Machine}
    (born : move.newborn? program config = some newborn) :
    newborn.id = move.round.ledger.nextId := by
  obtain ⟨child, found, rfl⟩ := Option.map_eq_some_iff.mp born
  rw [child?] at found
  split at found
  · contradiction
  · exact (Option.some.inj found).symm

/-! ## Following the turns -/

theorem Begins.append {past : List Move} {start : Machine}
    (begins : Begins program config input past start) (more : List Move) :
    Begins program config input (past ++ more) start := by
  cases begins with
  | first => exact .first
  | forked moveMem born => exact .forked (List.mem_append_left more moveMem) born

namespace Lived

variable {past : List Move} {start machine : Machine} {move : Move}

/-- A machine goes on to live through what does not concern it. -/
theorem other (lived : Lived program config input past start machine)
    (other : move.machine.id = machine.id → move.acts program config = false) :
    Lived program config input (past ++ [move]) start machine where
  begins := lived.begins.append [move]
  id := lived.id
  lives := by
    rw [verdictsOf, turnsOf_other other]
    exact lived.lives

/-- A machine goes on to live through its own turn. -/
theorem own (lived : Lived program config input past start move.machine)
    (settles : Move.Settles program config move) :
    Lived program config input (past ++ [move]) start (move.successor program config) := by
  cases active : move.acts program config with
  | false =>
      have idle : move.successor program config = move.machine := by
        rw [Move.successor, active]
        rfl
      rw [idle]
      exact lived.other fun _ => active
  | true =>
      constructor
      · exact lived.begins.append [move]
      · exact lived.id.trans move.id_successor.symm
      · rw [move.id_successor, Move.successor, if_pos active, verdictsOf_own active,
          turnsOf_own active, List.map_append]
        exact lived.lives.turn (settles.due active)

/-- A new machine has lived through nothing. -/
theorem newborn {newborn : Machine} (born : move.newborn? program config = some newborn)
    (unborn : ∀ earlier ∈ past ++ [move], earlier.machine.id ≠ newborn.id) :
    Lived program config input (past ++ [move]) newborn newborn where
  begins := .forked (List.mem_append_right past List.mem_cons_self) born
  id := rfl
  lives := by
    rw [verdictsOf, turnsOf_eq_nil unborn]
    exact .begins

end Lived

/-- Every machine there has been has lived through its turns. -/
theorem lived_recorded (program : Program) (config : Config) (input : Input) :
    Recorded program config fun past pool => pool.ledger.Tells pool.members ∧
      (∀ move ∈ past, move.machine.id < pool.ledger.nextId) ∧
      ∀ machine ∈ pool.members, ∃ start, Lived program config input past start machine where
  turn {past machine round} before := by
    obtain ⟨tells, known, lived⟩ := before
    have putBack := Round.members_toPool_putBack machine round
    have turned := Round.turned program config machine round
    have settles := Move.settles program config ⟨machine, round⟩
    have together : round.ledger.Tells (machine :: round.members) := tells.perm putBack.symm
    have seen : ∀ move ∈ past ++ [⟨machine, round⟩], move.machine.id < round.ledger.nextId := by
      rw [List.forall_mem_append, List.forall_mem_singleton]
      exact ⟨known, together.id_lt List.mem_cons_self⟩
    refine ⟨(tells_kept program config).turn turned tells, ?_, ?_⟩
    · intro move moveMem
      exact Nat.lt_of_lt_of_le (seen move moveMem) turned.effect.nextId_le
    · intro next nextMem
      rcases List.mem_cons.mp (settles.members.mem_iff.mp nextMem) with rfl | nextMem
      · obtain ⟨start, ofMachine⟩ := lived machine (putBack.mem_iff.mpr List.mem_cons_self)
        exact ⟨start, ofMachine.own settles⟩
      rcases List.mem_append.mp nextMem with nextMem | nextMem
      · have born := Option.mem_toList.mp nextMem
        refine ⟨next, .newborn born ?_⟩
        intro move moveMem
        rw [Move.id_newborn born]
        exact Nat.ne_of_lt (seen move moveMem)
      · obtain ⟨start, ofNext⟩ := lived next (putBack.mem_iff.mpr (List.mem_cons_of_mem _ nextMem))
        refine ⟨start, ofNext.other ?_⟩
        intro same
        exact absurd same.symm (together.distinct.1 next nextMem)
  retire {past pool} before := by
    obtain ⟨tells, known, lived⟩ := before
    exact ⟨(tells_kept program config).retire tells, known, fun machine machineMem =>
      lived machine ((members_retireHalted pool).mem_iff.mp machineMem)⟩

/-! ## Isolation -/

/-- Machines begin their lives alike when they have the same cells and scan the same of them, and
have the same instruction and input before them. -/
theorem Begins.alike {otherConfig : Config} {otherInput : Input} {moves otherMoves : List Move}
    {start otherStart : Machine} (begins : Begins program config input moves start)
    (otherBegins : Begins program otherConfig otherInput otherMoves otherStart)
    (cells : start.tape.cells = otherStart.tape.cells)
    (position : start.tape.position = otherStart.tape.position) (ip : start.ip = otherStart.ip)
    (unread : start.input = otherStart.input) : start.Alike otherStart := by
  have fresh {config : Config} {input : Input} {moves : List Move} {start : Machine}
      (begins : Begins program config input moves start) : start.output = #[] ∧
      start.children = #[] ∧ start.halted = false ∧ start.steps = 0 := by
    cases begins with
    | first => exact ⟨rfl, rfl, rfl, rfl⟩
    | forked _ born =>
        obtain ⟨child, _, rfl⟩ := Option.map_eq_some_iff.mp born
        exact ⟨rfl, rfl, rfl, rfl⟩
  obtain ⟨output, children, halted, steps⟩ := fresh begins
  obtain ⟨otherOutput, otherChildren, otherHalted, otherSteps⟩ := fresh otherBegins
  exact ⟨cells, position, ip, unread, output.trans otherOutput.symm,
    children.trans otherChildren.symm, halted.trans otherHalted.symm, steps.trans otherSteps.symm⟩

/-- The turns `moves`, which have led to the pool, have left the machines to themselves. -/
structure Isolated (program : Program) (config : Config) (input : Input) (moves : List Move)
    (pool : Pool) : Prop where
  /-- Every machine has gone through what it goes through by itself. -/
  lived : ∀ machine ∈ pool.machines, ∃ start, Lived program config input moves start machine
  /-- A turn changes no machine but the one that has it. -/
  untouched : ∀ move ∈ moves, ∀ other ∈ move.before.machines, other.id ≠ move.machine.id →
    other ∈ (move.after program config).machines
  /-- A machine of any other turns which begins with the same cells, scanned cell, instruction and
  input, and meets the same verdicts as far as both have met any, goes through states that are
  alike. -/
  determined : ∀ {otherConfig : Config} {otherInput : Input} {otherMoves : List Move}
    {start machine otherStart other : Machine},
    otherConfig.machine = config.machine → otherConfig.inputSplit = config.inputSplit →
    Lived program config input moves start machine →
    Lived program otherConfig otherInput otherMoves otherStart other →
    start.tape.cells = otherStart.tape.cells →
    start.tape.position = otherStart.tape.position →
    start.ip = otherStart.ip → start.input = otherStart.input →
    (verdictsOf program config machine.id moves <+:
        verdictsOf program otherConfig other.id otherMoves ∨
      verdictsOf program otherConfig other.id otherMoves <+:
        verdictsOf program config machine.id moves) →
    ∀ {index : Nat} {state otherState : Machine},
      (statesOf program config machine moves)[index]? = some state →
      (statesOf program otherConfig other otherMoves)[index]? = some otherState →
      state.Alike otherState

/-- Whatever rounds and runs have led to a pool, and whether or not they ended in a fault, machines
have gone through their turns as if by themselves. -/
theorem isolated_of_history {program : Program} {config : Config} {input : Input}
    {past : List Pool} {pool : Pool} (history : History program config input past pool) :
    Isolated program config input (past.flatMap (moves program config)) pool where
  lived := by
    have start : (initial config input).ledger.Tells (initial config input).members ∧
        (∀ move ∈ ([] : List Move), move.machine.id < (initial config input).ledger.nextId) ∧
        ∀ machine ∈ (initial config input).members,
          ∃ start, Lived program config input [] start machine := by
      refine ⟨tells_initial config input, by simp, ?_⟩
      intro machine machineMem
      rw [List.mem_singleton.mp machineMem]
      exact ⟨_, .first, rfl, .begins⟩
    obtain ⟨_, _, lived⟩ := (lived_recorded program config input).of_history start history
    intro machine machineMem
    exact lived machine (pool.machines_perm_members.mem_iff.mp machineMem)
  untouched := by
    intro move _ other otherMem others
    rw [(machines_perm_members _).mem_iff] at otherMem ⊢
    rw [(move.settles program config).members.mem_iff]
    have present := (Round.members_toPool_putBack move.machine move.round).mem_iff.mp otherMem
    have stays : other ∈ move.round.members := by
      rcases List.mem_cons.mp present with rfl | stays
      · exact absurd rfl others
      · exact stays
    exact List.mem_cons_of_mem _ (List.mem_append_right _ stays)
  determined := by
    intro otherConfig otherInput otherMoves start machine otherStart other machineConfig split
      lived otherLived cells position ip unread comparable index state otherState found otherFound
    have otherLives := otherLived.lives
    rw [machineConfig, split] at otherLives
    have alike := lived.begins.alike otherLived.begins cells position ip unread
    exact lived.lives.alike alike otherLives comparable found otherFound

/-- With room for three machines, the first machine forks off two in two rounds, and all that the
elder of them notices is that there is no room for a child of its own. -/
theorem forkTwice_isolated :
    ∃ past pool, History forkTwice { maxLive := 3 } ⟨[]⟩ past pool ∧
      verdictsOf forkTwice { maxLive := 3 } 0 (past.flatMap (moves forkTwice { maxLive := 3 })) =
        [.forked 1, .forked 2] ∧
      verdictsOf forkTwice { maxLive := 3 } 1 (past.flatMap (moves forkTwice { maxLive := 3 })) =
        [.refused] ∧
      Isolated forkTwice { maxLive := 3 } ⟨[]⟩
        (past.flatMap (moves forkTwice { maxLive := 3 })) pool :=
  ⟨_, _, .sweep (.sweep .initial), rfl, rfl, isolated_of_history (.sweep (.sweep .initial))⟩

end ForkTape.Pool
