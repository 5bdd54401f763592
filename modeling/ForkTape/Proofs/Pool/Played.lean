import ForkTape.Proofs.Pool.Heirs

/-!
# Rounds without a fault

In a round that ends without a fault every registered machine has one turn. It executes the
instruction that it has come to, or it halts (`Plays`). Machines that are forked off have no turn,
and whoever has left the registry stays as it is.

All this holds of rounds that begin with a tidy pool, where those and only those machines are
retired that have halted (`Tidy`). A round without a fault leaves a tidy pool again, while one
that ends in a fault may leave halted machines in the registry.

`Underway` says what has happened in the middle of such a round, and `Played` what has happened
at its end.
-/

namespace ForkTape.Pool

/-- What a turn without a fault makes of a live machine. -/
inductive Plays (program : Program) (config : Config) (machine next : Machine) : Prop
  /-- It executes the instruction that it has come to. -/
  | executed {instruction : Instruction}
      (found : program.instruction? machine.ip = some instruction)
      (admitted : config.machine.maxSteps.reached? machine.steps = none)
      (id : next.id = machine.id) (live : next.halted = false)
      (steps : next.steps = machine.steps + 1)
  /-- It halts where no instruction is left. -/
  | halted (missing : program.instruction? machine.ip = none) (halted : next = machine.halt)

/-- A machine that has not had a turn yet and was forked off when no id from `nextId` on had been
given away. -/
structure IsNew (nextId : Nat) (machine : Machine) : Prop where
  id : nextId ≤ machine.id
  live : machine.halted = false
  steps : machine.steps = 0

/-- The machines that have halted, and only they, have left the registry. -/
structure Tidy (pool : Pool) : Prop where
  live : ∀ machine ∈ pool.registered, machine.halted = false
  halted : ∀ machine ∈ pool.ledger.retired.toList, machine.halted = true

theorem tidy_initial (config : Config) (input : Input) : (initial config input).Tidy := by
  constructor <;> simp [initial, Machine.initial]

/-- A pool is tidy when its halted machines have just been retired. -/
theorem tidy_retireHalted {pool : Pool}
    (halted : ∀ machine ∈ pool.ledger.retired.toList, machine.halted = true) :
    pool.retireHalted.Tidy where
  live := by simp [retireHalted]
  halted := by
    simp only [retireHalted, Ledger.retire, Array.toList_appendList, List.forall_mem_append]
    exact ⟨halted, by simp⟩

variable {program : Program} {config : Config}

/-- A machine has the same id after its turn. -/
theorem Plays.id_eq {machine next : Machine} (plays : Plays program config machine next) :
    next.id = machine.id := by
  cases plays with
  | executed found admitted id live steps => exact id
  | halted missing halted => rw [halted, Machine.halt]

namespace Heirs

variable {machine : Machine} {child : Nat} {heirs : List Machine}

/-- The heirs of a live machine that does not fault are the machine after its turn and machines
that it has forked off. -/
theorem plays (become : Heirs program config machine child none heirs)
    (live : machine.halted = false) :
    ∃ next newborns, heirs = next :: newborns ∧ Plays program config machine next ∧
      ∀ newborn ∈ newborns, IsNew child newborn := by
  cases become with
  | rested halted =>
      rw [live] at halted
      contradiction
  | ended live missing => exact ⟨_, [], rfl, .halted missing rfl, by simp⟩
  | @advanced instruction next event? live found plain admitted performed =>
      obtain ⟨kin, halted, steps, _⟩ := Machine.perform_keeps program config.machine.overflow
        instruction machine.count
      rw [performed] at kin halted steps
      exact ⟨next, [], rfl,
        .executed found admitted (congrArg Machine.Kin.id kin) (halted.trans live) steps, by simp⟩
  | refused live found admitted =>
      exact ⟨_, [], rfl, .executed found admitted rfl live rfl, by simp⟩
  | forked live found admitted =>
      refine ⟨_, _, rfl, .executed found admitted rfl live rfl, ?_⟩
      rw [List.forall_mem_singleton]
      exact ⟨Nat.le_refl child, rfl, rfl⟩

/-- At most one machine is forked off in a turn. -/
theorem length_eq {fault? : Option Fault}
    (become : Heirs program config machine child fault? heirs) :
    heirs.length = 1 ∨ heirs.length = 2 := by
  cases become <;> simp

end Heirs

namespace Round

variable {machine : Machine} {round after : Round}

theorem Resolved.waiting_eq (resolved : Resolved config machine round after) :
    after.waiting = round.waiting := by
  cases resolved <;> rfl

theorem Resolved.retired_eq (resolved : Resolved config machine round after) :
    after.ledger.retired = round.ledger.retired := by
  cases resolved <;> rfl

/-- Whoever waits goes on waiting when nobody has halted. -/
theorem Turned.waiting_eq (turned : Turned program config machine round (.ok after))
    (live : ∀ other ∈ round.waiting, other.halted = false) : after.waiting = round.waiting := by
  cases turned with
  | rested halted => rfl
  | advanced live admitted executed => rfl
  | halted live admitted executed => rfl
  | atFork _ admitted executed resolved =>
      rw [resolved.waiting_eq]
      apply List.filter_eq_self.mpr
      intro other otherMem
      rw [live other otherMem]
      rfl

/-- Only halted machines leave the registry in a turn. -/
theorem Turned.halted_of_mem_retired (turned : Turned program config machine round (.ok after))
    (halted : ∀ other ∈ round.ledger.retired.toList, other.halted = true) :
    ∀ other ∈ after.ledger.retired.toList, other.halted = true := by
  cases turned with
  | rested _ => exact halted
  | advanced live admitted executed =>
      simpa [visit, progress, book, Ledger.countStep] using halted
  | halted live admitted executed =>
      simpa [visit, progress, book, Ledger.record] using halted
  | atFork live admitted executed resolved =>
      rw [resolved.retired_eq]
      simp only [retireHalted, progress, book, Ledger.countStep, Ledger.retire,
        Ledger.retired_recordAny, Array.toList_appendList, List.forall_mem_append]
      exact ⟨halted, ⟨by simp, by simp⟩, by simp⟩

end Round

/-- The machines that are forked off in a turn have the ids given away in it. -/
theorem Move.child?_eq_some_iff {machine : Machine} {round : Round} {id : Nat} :
    child? program config ⟨machine, round⟩ = some id ↔ round.ledger.nextId ≤ id ∧
      id < (Round.left (round.turn program config machine)).ledger.nextId := by
  obtain ⟨heirs, become, _, nextId⟩ := (Round.turned program config machine round).leaves
  rcases become.length_eq with one | two
  · rw [one] at nextId
    rw [child?_eq_none nextId]
    simp only [reduceCtorEq, false_iff]
    omega
  · rw [two] at nextId
    rw [child?_eq_some nextId, Option.some.injEq]
    omega

/-- A round under way that has begun with `pool` and has come to no fault, after `moves`. The
machines that have had their turns and those forked off are `heirs`. -/
structure Underway (program : Program) (config : Config) (pool : Pool) (moves : List Move)
    (heirs : List Machine) (round : Round) : Prop where
  /-- The turns come up in the order of the registry. -/
  order : moves.map Move.machine ++ round.waiting = pool.registered
  sound : ∀ move ∈ moves, (move.result program config).isOk = true
  members : round.members.Perm (pool.ledger.retired.toList ++ (round.waiting ++ heirs))
  become : ∀ heir ∈ heirs,
    (∃ move ∈ moves, Plays program config move.machine heir) ∨ IsNew pool.ledger.nextId heir
  /-- The ids given away are those of the machines forked off. -/
  births : ∀ id, (∃ move ∈ moves, move.child? program config = some id) ↔
    pool.ledger.nextId ≤ id ∧ id < round.ledger.nextId
  nextId : pool.ledger.nextId ≤ round.ledger.nextId
  halted : ∀ machine ∈ round.ledger.retired.toList, machine.halted = true

namespace Underway

variable {pool : Pool} {moves : List Move} {heirs : List Machine} {machine : Machine}
  {round after : Round}

theorem start (tidy : pool.Tidy) : Underway program config pool [] [] (Round.start pool) where
  order := rfl
  sound := by simp
  members := by simp [Round.start, Round.members]
  become := by simp
  births id := by
    simp only [List.not_mem_nil, false_and, exists_false, false_iff, Round.start]
    omega
  nextId := Nat.le_refl _
  halted := tidy.halted

/-- Nobody halts while waiting. -/
theorem live_of_waiting (underway : Underway program config pool moves heirs round)
    (tidy : pool.Tidy) : ∀ machine ∈ round.waiting, machine.halted = false := by
  intro machine machineMem
  apply tidy.live
  rw [← underway.order]
  exact List.mem_append_right _ machineMem

/-- The machines other than the one whose turn it is. -/
theorem others (before : Underway program config pool moves heirs (round.putBack machine)) :
    round.members.Perm (pool.ledger.retired.toList ++ (round.waiting ++ heirs)) := by
  -- Both sides count the machine itself once, wherever it stands.
  apply List.Perm.cons_inv (a := machine)
  apply (Round.members_putBack machine round).symm.trans
  exact before.members.trans List.perm_middle

/-- What the heirs have come from, those of another turn among them. -/
theorem become_append {more : List Machine}
    (before : Underway program config pool moves heirs (round.putBack machine))
    (live : machine.halted = false)
    (become : Heirs program config machine round.ledger.nextId none more) :
    ∀ heir ∈ heirs ++ more,
      (∃ move ∈ moves ++ [⟨machine, round⟩], Plays program config move.machine heir) ∨
        IsNew pool.ledger.nextId heir := by
  rw [List.forall_mem_append]
  constructor
  · intro heir heirMem
    apply (before.become heir heirMem).imp_left
    rintro ⟨move, moveMem, plays⟩
    exact ⟨move, List.mem_append_left _ moveMem, plays⟩
  · obtain ⟨next, newborns, rfl, plays, areNew⟩ := become.plays live
    rw [List.forall_mem_cons]
    constructor
    · exact .inl ⟨_, List.mem_append_right _ (List.mem_singleton.mpr rfl), plays⟩
    · intro newborn newbornMem
      have isNew := areNew newborn newbornMem
      exact .inr ⟨Nat.le_trans before.nextId isNew.id, isNew.live, isNew.steps⟩

/-- A turn without a fault keeps the round under way. -/
theorem turn (tidy : pool.Tidy)
    (before : Underway program config pool moves heirs (round.putBack machine))
    (ended : round.turn program config machine = .ok after) :
    ∃ more, Underway program config pool (moves ++ [⟨machine, round⟩]) (heirs ++ more) after := by
  have live := before.live_of_waiting tidy
  have turned := Round.turned program config machine round
  obtain ⟨more, become, members, nextId⟩ := turned.leaves
  have births := @Move.child?_eq_some_iff program config machine round
  rw [ended] at turned become members nextId births
  have waiting : after.waiting = round.waiting :=
    turned.waiting_eq fun other otherMem => live other (List.mem_cons_of_mem _ otherMem)
  have nextId_le : round.ledger.nextId ≤ after.ledger.nextId := turned.effect.nextId_le
  refine ⟨more, ?_, ?_, ?_, ?_, ?_, Nat.le_trans before.nextId nextId_le, ?_⟩
  · rw [List.map_append, waiting, List.append_assoc]
    exact before.order
  · intro move moveMem
    rcases List.mem_append.mp moveMem with moveMem | moveMem
    · exact before.sound move moveMem
    · obtain rfl := List.mem_singleton.mp moveMem
      rw [Move.result, ended]
      rfl
  · rw [waiting]
    apply (members.trans (before.others.append_left more)).trans
    apply List.perm_append_comm.trans
    simp only [List.append_assoc, List.Perm.refl]
  · exact before.become_append (live machine List.mem_cons_self) become
  · intro id
    have earlier := before.births id
    have now := @births id
    simp only [List.mem_append, List.mem_singleton, or_and_right, exists_or, exists_eq_left,
      earlier, now, Round.left, Round.putBack]
    have le := before.nextId
    simp only [Round.putBack] at le
    omega
  · exact turned.halted_of_mem_retired before.halted

/-- At the end of the round nobody is waiting. -/
theorem waiting_eq_nil
    (underway : Underway program config pool (pool.moves program config) heirs round)
    (turned : (Round.start pool).turns program config pool.registered.length = .ok round) :
    round.waiting = [] := by
  apply waiting_eq_nil_of_room _ turned
  have lengths := congrArg List.length underway.order
  rw [List.length_append, List.length_map] at lengths
  exact Nat.le_of_eq lengths

end Underway

/-- What has happened in a round without a fault that led from `pool` to `next`. -/
structure Played (program : Program) (config : Config) (pool next : Pool) : Prop where
  /-- Every registered machine has had one turn. -/
  order : (pool.moves program config).map Move.machine = pool.registered
  sound : ∀ move ∈ pool.moves program config, (move.result program config).isOk = true
  become : ∀ machine ∈ next.members, machine ∈ pool.ledger.retired.toList ∨
    (∃ before ∈ pool.registered, Plays program config before machine) ∨
      IsNew pool.ledger.nextId machine
  births : ∀ id, (∃ move ∈ pool.moves program config, move.child? program config = some id) ↔
    pool.ledger.nextId ≤ id ∧ id < next.ledger.nextId
  nextId : pool.ledger.nextId ≤ next.ledger.nextId
  tidy : next.Tidy

/-- What happens in a round without a fault. -/
theorem played_sweep {pool next : Pool} {progressed : Bool} (tidy : pool.Tidy)
    (swept : pool.sweep program config = (next, .ok progressed)) :
    Played program config pool next := by
  have ends : SweepEnds program config
      (fun moves round => ∃ heirs, Underway program config pool moves heirs round) pool
      (pool.sweep program config) := by
    apply sweepEnds _ ⟨[], .start tidy⟩
    rintro moves machine round after ⟨heirs, before⟩ ended
    obtain ⟨more, underway⟩ := before.turn tidy ended
    exact ⟨heirs ++ more, underway⟩
  rw [swept] at ends
  cases ends with
  | @finished round kept turned =>
      obtain ⟨heirs, underway⟩ := kept
      have nobody := underway.waiting_eq_nil turned
      have order := underway.order
      have members := underway.members
      rw [nobody, List.append_nil] at order
      rw [nobody, List.nil_append] at members
      refine ⟨order, underway.sound, ?_, underway.births, underway.nextId,
        tidy_retireHalted underway.halted⟩
      intro machine machineMem
      have same := (members_retireHalted round.toPool).trans (Round.members_toPool round)
      rcases List.mem_append.mp ((same.trans members).mem_iff.mp machineMem) with
        retired | heirMem
      · exact .inl retired
      · right
        apply (underway.become machine heirMem).imp_left
        rintro ⟨move, moveMem, plays⟩
        exact ⟨move.machine, order ▸ List.mem_map_of_mem moveMem, plays⟩

end ForkTape.Pool
