import ForkTape.Proofs.Pool.Precedence

/-!
# Rounds that end in a fault

A fault ends a round at once, in the turn of one machine. The older machines have had their turns
then, just as in a round that goes on to its end; the younger ones have had none, and stand where
they stood. Of the machine at fault at most its count of instructions has changed. Nothing of this
is lost, and halted machines that stay in the registry are reported like those that have left it
(`CutOff`).

`Passed` says how far a round under way has come. What the older machines have done does not depend
on the machine at fault nor on the younger ones (`Ahead`), so it is compared with any round in
which these are others that let it go on.
-/

namespace ForkTape

/-- What a fault that ends the turn of a machine leaves of the machine. -/
inductive Machine.Faulted (machine : Machine) : Fault → Machine → Prop
  | byGlobalLimit {limit : Nat} : Faulted machine (.globalStepLimit limit) machine
  | byOwnLimit {limit : Nat} : Faulted machine (.stepLimit machine.id limit) machine
  | byTape {capacity : Nat} : Faulted machine (.tapeOverflow machine.id capacity)
      { machine with steps := machine.steps + 1 }

namespace Machine

variable {machine next : Machine} {fault : Fault}

theorem Faulted.id_eq (faulted : machine.Faulted fault next) : next.id = machine.id := by
  cases faulted <;> rfl

/-- At its limit a machine does not change, and when it moves past its last cell only its count
does. -/
theorem faulted_of_exec {program : Program} {config : Config} {event? : Option Event}
    (executed : machine.exec program config = ⟨next, .error fault, event?⟩) :
    event? = none ∧ ((∃ limit, fault = .stepLimit machine.id limit ∧ next = machine) ∨
      ∃ capacity, fault = .tapeOverflow machine.id capacity ∧
        next = { machine with steps := machine.steps + 1 }) := by
  cases executes_of_exec executed with
  | limited live found reached => exact ⟨rfl, .inl ⟨_, rfl, rfl⟩⟩
  | rejected live found admitted last => exact ⟨rfl, .inr ⟨_, rfl, rfl⟩⟩

end Machine

namespace Pool

variable {program : Program} {config : Config} {input : Input} {pool : Pool}

/-! ## Single turns -/

namespace Round

variable {machine : Machine} {round after : Round}

/-- A turn that ends in a fault changes the machine at most. -/
theorem Turned.faulted_of_error {fault : Fault}
    (turned : Turned program config machine round (.error (fault, after))) :
    machine.pending program = true ∧
      ∃ next, machine.Faulted fault next ∧ after = round.putBack next := by
  refine ⟨turned.pending_of_error, ?_⟩
  cases turned with
  | stopped live pending reached => exact ⟨machine, .byGlobalLimit, rfl⟩
  | faulted live admitted executed =>
      obtain ⟨rfl, ⟨limit, rfl, rfl⟩ | ⟨capacity, rfl, rfl⟩⟩ := Machine.faulted_of_exec executed
      · exact ⟨_, .byOwnLimit, rfl⟩
      · exact ⟨_, .byTape, rfl⟩

/-- A live machine that has had its turn has played. -/
theorem Turned.exists_plays (turned : Turned program config machine round (.ok after))
    (live : machine.halted = false) :
    ∃ next ∈ after.atRest, Plays program config machine next := by
  have visited {next : Machine} {later : List Machine} (same : after.visited = next :: later) :
      next ∈ after.atRest := by
    simp [atRest, same]
  cases turned with
  | rested halted =>
      rw [live] at halted
      contradiction
  | advanced _ admitted executed =>
      cases Machine.executes_of_exec executed with
      | advanced _ found plain withinOwn performed =>
          have executes := Machine.executes_of_exec executed
          obtain ⟨nextLive, steps⟩ := executes.of_advanced
          exact ⟨_, visited rfl, .executed found withinOwn executes.grows.id nextLive steps⟩
  | halted _ admitted executed =>
      cases Machine.executes_of_exec executed with
      | rested halted => exact absurd halted (Bool.eq_false_iff.mp live)
      | ended _ missing => exact ⟨_, visited rfl, .halted missing rfl⟩
  | atFork _ admitted executed resolved =>
      cases Machine.executes_of_exec executed with
      | reachedFork _ found withinOwn =>
          cases resolved with
          | forked room => exact ⟨_, visited rfl, .executed found withinOwn rfl live rfl⟩
          | refused full => exact ⟨_, visited rfl, .executed found withinOwn rfl live rfl⟩

/-- A turn records no refusal but one of its machine. -/
theorem Turned.exists_refusals {result : Except (Fault × Round) Round}
    (turned : Turned program config machine round result) :
    ∃ more, (left result).ledger.refusals.toList = round.ledger.refusals.toList ++ more ∧
      ∀ refusal ∈ more, refusal.machine = machine.id := by
  have nobody {ledger : Ledger} (same : ledger.refusals = round.ledger.refusals) :
      ∃ more, ledger.refusals.toList = round.ledger.refusals.toList ++ more ∧
        ∀ refusal ∈ more, refusal.machine = machine.id :=
    ⟨[], by rw [same, List.append_nil], by simp⟩
  cases turned with
  | rested halted => exact nobody rfl
  | stopped live pending reached => exact nobody rfl
  | faulted live admitted executed => exact nobody (Ledger.refusals_recordAny _ _)
  | advanced live admitted executed => exact nobody (Ledger.refusals_recordAny _ _)
  | halted live admitted executed => exact nobody (Ledger.refusals_recordAny _ _)
  | @atFork next event? after live admitted executed resolved =>
      have same :
          (round.book (·.recordAny event? |>.countStep)).progress.retireHalted.ledger.refusals =
            round.ledger.refusals := Ledger.refusals_recordAny _ _
      have id_eq : next.id = machine.id := (Machine.executes_of_exec executed).grows.id
      cases resolved with
      | forked room => exact nobody same
      | refused full =>
          have pushed (refusal : Refusal) : (round.ledger.refusals.push refusal).toList =
              round.ledger.refusals.toList ++ [refusal] := Array.toList_push ..
          rw [← same] at pushed ⊢
          exact ⟨_, pushed _, List.forall_mem_singleton.mpr id_eq⟩

end Round

/-! ## How far a round has come -/

/-- A round under way that has begun with `pool` and has come to no fault, after `moves`. -/
structure Passed (program : Program) (config : Config) (pool : Pool) (moves : List Move)
    (round : Round) : Prop where
  attended : Attended program config pool moves round
  /-- Nobody has been overtaken. -/
  sequence : (moves.map Move.machine ++ round.waiting).Sublist pool.registered
  globalSteps : round.ledger.globalSteps = pool.ledger.globalSteps +
    (moves.map Move.machine).countP (Machine.pending program)
  played : ∀ move ∈ moves, move.machine.halted = false →
    ∃ next ∈ round.atRest, Plays program config move.machine next

namespace Passed

variable {moves : List Move} {machine : Machine} {round after : Round}

theorem start (program : Program) (config : Config) (pool : Pool) :
    Passed program config pool [] (.start pool) where
  attended := .start program config pool
  sequence := List.Sublist.refl _
  globalSteps := rfl
  played := by simp

theorem turn (before : Passed program config pool moves (round.putBack machine))
    (ended : round.turn program config machine = .ok after) :
    Passed program config pool (moves ++ [⟨machine, round⟩]) after := by
  have turned := Round.turned program config machine round
  rw [ended] at turned
  refine ⟨before.attended.turn ended, ?_, ?_, ?_⟩
  · rw [List.map_append, List.append_assoc]
    apply List.Sublist.trans _ before.sequence
    exact (turned.waiting_sublist.1.cons_cons machine).append_left _
  · have counted := turned.globalSteps_eq
    have earlier : round.ledger.globalSteps = _ := before.globalSteps
    simp only [Round.left, Except.isOk, Except.toBool, Bool.true_and] at counted
    rw [counted, earlier, List.map_append, List.countP_append, List.map_singleton,
      List.countP_singleton, Nat.add_assoc]
  · rw [List.forall_mem_append, List.forall_mem_singleton]
    constructor
    · intro move moveMem live
      obtain ⟨next, nextMem, plays⟩ := before.played move moveMem live
      exact ⟨next, turned.atRest_subset nextMem, plays⟩
    · exact turned.exists_plays

/-- The machines that have had their turns are older than the one whose turn it is. -/
theorem id_lt (ordered : pool.Ordered)
    (before : Passed program config pool moves (round.putBack machine)) :
    ∀ move ∈ moves, move.machine.id < machine.id := by
  have ascending := ordered.ascending.sublist (before.sequence.map Machine.id)
  rw [List.map_append, List.pairwise_append] at ascending
  intro move moveMem
  exact ascending.2.2 _ (List.mem_map_of_mem (List.mem_map_of_mem moveMem)) _ List.mem_cons_self

/-- Those who wait are younger than the one whose turn it is. -/
theorem lt_id (ordered : pool.Ordered)
    (before : Passed program config pool moves (round.putBack machine)) :
    ∀ other ∈ round.waiting, machine.id < other.id := by
  have ascending := ordered.ascending.sublist (before.sequence.map Machine.id)
  rw [List.map_append, List.pairwise_append] at ascending
  intro other otherMem
  exact List.rel_of_pairwise_cons ascending.2.1 (List.mem_map_of_mem otherMem)

/-- A live machine has had its turn if it is older than the one whose turn it is. -/
theorem mem_moves_of_id_lt (ordered : pool.Ordered)
    (before : Passed program config pool moves (round.putBack machine)) {other : Machine}
    (otherMem : other ∈ pool.registered) (live : other.halted = false)
    (older : other.id < machine.id) : other ∈ moves.map Move.machine := by
  rcases List.mem_append.mp (before.attended.present other otherMem live) with moved | waits
  · exact moved
  rcases List.mem_cons.mp waits with rfl | waits
  · exact absurd older (Nat.lt_irrefl _)
  · exact absurd older (Nat.lt_asymm (before.lt_id ordered other waits))

/-- A live machine waits for its turn if it is younger than the one whose turn it is. -/
theorem mem_waiting_of_lt_id (ordered : pool.Ordered)
    (before : Passed program config pool moves (round.putBack machine)) {other : Machine}
    (otherMem : other ∈ pool.registered) (live : other.halted = false)
    (younger : machine.id < other.id) : other ∈ round.waiting := by
  rcases List.mem_append.mp (before.attended.present other otherMem live) with moved | waits
  · obtain ⟨move, moveMem, rfl⟩ := List.mem_map.mp moved
    exact absurd younger (Nat.lt_asymm (before.id_lt ordered move moveMem))
  rcases List.mem_cons.mp waits with rfl | waits
  · exact absurd younger (Nat.lt_irrefl _)
  · exact waits

/-- The instructions that have been executed are those of the older machines. -/
theorem countP_pending (ordered : pool.Ordered)
    (before : Passed program config pool moves (round.putBack machine)) :
    (moves.map Move.machine).countP (Machine.pending program) =
      (pool.registered.filter fun other => other.id < machine.id).countP
        (Machine.pending program) := by
  have nodup : pool.registered.Nodup :=
    List.Nodup.of_map Machine.id (ordered.ascending.imp Nat.ne_of_lt)
  have moved := (List.sublist_append_left _ _).trans before.sequence
  rw [List.countP_eq_length_filter, List.countP_eq_length_filter]
  apply List.Perm.length_eq
  rw [List.perm_ext_iff_of_nodup ((nodup.sublist moved).filter _) ((nodup.filter _).filter _)]
  intro other
  simp only [List.mem_filter, decide_eq_true_eq]
  constructor
  · rintro ⟨otherMoved, pending⟩
    obtain ⟨move, moveMem, rfl⟩ := List.mem_map.mp otherMoved
    exact ⟨⟨moved.mem otherMoved, before.id_lt ordered move moveMem⟩, pending⟩
  · rintro ⟨⟨otherMem, older⟩, pending⟩
    exact ⟨before.mem_moves_of_id_lt ordered otherMem (Machine.live_of_pending pending) older,
      pending⟩

end Passed

/-! ## Rounds that go on -/

/-- What has become of a round in which only machines with ids from `first` on have turns. -/
structure Onward (first : Nat) (round after : Round) : Prop where
  waiting : ∀ other ∈ after.waiting, first ≤ other.id
  atRest : round.atRest ⊆ after.atRest
  refusals : ∃ more, after.ledger.refusals.toList = round.ledger.refusals.toList ++ more ∧
    ∀ refusal ∈ more, first ≤ refusal.machine
  globalSteps : round.ledger.globalSteps ≤ after.ledger.globalSteps

theorem Onward.turn {first : Nat} {start round after : Round} {machine : Machine}
    (before : Onward first start (round.putBack machine))
    (ended : round.turn program config machine = .ok after) : Onward first start after := by
  have turned := Round.turned program config machine round
  rw [ended] at turned
  obtain ⟨more, refusals, later⟩ := before.refusals
  obtain ⟨last, refused, own⟩ := turned.exists_refusals
  have counted := turned.globalSteps_eq
  constructor
  · intro other otherMem
    exact before.waiting other (List.mem_cons_of_mem _ (turned.waiting_sublist.1.mem otherMem))
  · exact List.Subset.trans before.atRest turned.atRest_subset
  · refine ⟨more ++ last, ?_, List.forall_mem_append.mpr ⟨later, ?_⟩⟩
    · rw [← List.append_assoc, ← refusals]
      exact refused
    · intro refusal refusalMem
      rw [own refusal refusalMem]
      exact before.waiting machine List.mem_cons_self
  · rw [Round.left] at counted
    rw [counted]
    exact Nat.le_add_right_of_le before.globalSteps

theorem onward_of_turns {first : Nat} {round after : Round} {count : Nat}
    (waiting : ∀ other ∈ round.waiting, first ≤ other.id)
    (turned : round.turns program config count = .ok after) : Onward first round after := by
  have start : Onward first round round :=
    ⟨waiting, List.Subset.refl _, ⟨[], (List.append_nil _).symm, by simp⟩, Nat.le_refl _⟩
  have ends := @Round.turnsEnd program config (fun _ after => Onward first round after)
    (fun before ended => before.turn ended) count [] round start
  rw [turned] at ends
  cases ends with
  | finished onward => exact onward

/-! ## The cut -/

/-- What a round that ended in a fault, in the turn of the machine `first`, has in common with one
that went on: the older machines and those that were forked off by them. -/
structure Shares (first nextId : Nat) (failed next : Pool) : Prop where
  members : ∀ machine ∈ failed.members, machine.id < first ∨ nextId ≤ machine.id →
    machine ∈ next.members
  /-- What is refused besides is not refused to an older machine. -/
  refusals : ∃ more, next.ledger.refusals.toList = failed.ledger.refusals.toList ++ more ∧
    ∀ refusal ∈ more, first ≤ refusal.machine
  globalSteps : failed.ledger.globalSteps ≤ next.ledger.globalSteps

/-- How a round that began with `pool` ended in a fault, in the turn of `machine`. -/
structure CutOff (program : Program) (config : Config) (pool failed : Pool) (fault : Fault)
    (machine : Machine) : Prop where
  registered : machine ∈ pool.registered
  pending : machine.pending program = true
  itself : ∃ next ∈ failed.registered, machine.Faulted fault next
  /-- The older machines have played. -/
  older : ∀ other ∈ pool.registered, other.halted = false → other.id < machine.id →
    ∃ next ∈ failed.members, Plays program config other next
  /-- They have done as in every round that goes on, with other machines in the place of those from
  `machine` on. -/
  agrees : ∀ {other next : Pool} {progressed : Bool},
    pool.Mirrored (Machine.SameOutside machine.id pool.ledger.nextId) other →
    other.sweep program config = (next, .ok progressed) →
    Shares machine.id pool.ledger.nextId failed next
  comparable : ∃ other next progressed,
    pool.Mirrored (Machine.SameOutside machine.id pool.ledger.nextId) other ∧
      other.sweep program config = (next, .ok progressed)
  younger : ∀ other ∈ pool.registered, other.halted = false → machine.id < other.id →
    other ∈ failed.registered
  halted : ∀ other ∈ pool.members, other.halted = true → other ∈ failed.members
  globalSteps : failed.ledger.globalSteps = pool.ledger.globalSteps +
    (pool.registered.filter fun other => other.id < machine.id).countP (Machine.pending program)
  /-- Every machine is reported as it stands. -/
  reported : ∀ other ∈ failed.members, failed.report.find? other.id = some other.result
  ids : failed.report.results.map Machine.Result.id = List.range failed.ledger.nextId
  refusals : failed.report.refusals = failed.ledger.refusals.toList
  totalSteps : failed.report.totalSteps = failed.ledger.globalSteps
  /-- It does not matter whether halted machines have left the registry. -/
  deregistered : failed.retireHalted.report = failed.report

/-- Where a round has been when it ended in a fault. -/
structure Cut (program : Program) (config : Config) (pool failed : Pool) (fault : Fault)
    (earlier : List Move) (machine : Machine) (round : Round) : Prop where
  passed : Passed program config pool earlier (round.putBack machine)
  pending : machine.pending program = true
  failed_eq : ∃ next, machine.Faulted fault next ∧ failed = (round.putBack next).toPool
  /-- A round with other machines in the place of those from `first` on comes as far. -/
  ahead : ∀ {alike : Machine → Machine → Prop} {other : Pool} {first : Nat},
    Machine.Spares first pool.ledger.nextId alike → pool.Mirrored alike other →
    (∀ move ∈ earlier, move.machine.id < first) →
    ∃ mirror, Ahead program config pool.ledger.nextId alike other earlier (round.putBack machine)
      mirror

theorem exists_cut {failed : Pool} {fault : Fault}
    (swept : pool.sweep program config = (failed, .error fault)) :
    ∃ earlier machine round, Cut program config pool failed fault earlier machine round := by
  have ends : SweepEnds program config
      (fun moves round => Passed program config pool moves round ∧
        ∀ {alike : Machine → Machine → Prop} {other : Pool} {first : Nat},
          Machine.Spares first pool.ledger.nextId alike → pool.Mirrored alike other →
          (∀ move ∈ moves, move.machine.id < first) →
          ∃ mirror, Ahead program config pool.ledger.nextId alike other moves round mirror)
      pool (pool.sweep program config) := by
    apply sweepEnds
    · rintro past machine round after ⟨passed, ahead⟩ ended
      refine ⟨passed.turn ended, ?_⟩
      intro alike other first spares mirrored within
      rw [List.forall_mem_append, List.forall_mem_singleton] at within
      obtain ⟨mirror, before⟩ := ahead spares mirrored within.1
      exact before.turn spares within.2 ended
    · exact ⟨.start program config pool, fun _ mirrored _ => ⟨_, .start mirrored⟩⟩
  rw [swept] at ends
  cases ends with
  | @aborted earlier machine round after _ last before turned =>
      obtain ⟨pending, next, faulted, rfl⟩ :=
        (turned ▸ Round.turned program config machine round).faulted_of_error
      exact ⟨earlier, machine, round, before.1, pending, ⟨next, faulted, rfl⟩, before.2⟩

namespace Cut

variable {failed : Pool} {fault : Fault} {earlier : List Move} {machine : Machine} {round : Round}

theorem registered (cut : Cut program config pool failed fault earlier machine round) :
    machine ∈ pool.registered :=
  cut.passed.attended.registered _ (List.mem_append_right _ List.mem_cons_self)

/-- Who is no machine from the one at fault on has been at rest in the round. -/
theorem mem_atRest (cut : Cut program config pool failed fault earlier machine round)
    (ordered : pool.Ordered) {other : Machine} (otherMem : other ∈ failed.members)
    (outside : other.id < machine.id ∨ pool.ledger.nextId ≤ other.id) : other ∈ round.atRest := by
  have known : ∀ other ∈ pool.registered, other.id < pool.ledger.nextId := fun other otherMem =>
    ordered.tells.id_lt (List.mem_append_right _ otherMem)
  obtain ⟨next, faulted, rfl⟩ := cut.failed_eq
  rw [(Round.members_toPool_putBack next round).mem_iff, List.mem_cons] at otherMem
  rcases otherMem with rfl | otherMem
  · have machine_lt := known machine cut.registered
    rw [faulted.id_eq] at outside
    omega
  · simp only [Round.members, Round.atRest, List.mem_append] at otherMem ⊢
    rcases otherMem with retired | visited | waits | born
    · exact .inl retired
    · exact .inr (.inl visited)
    · have younger := cut.passed.lt_id ordered other waits
      have other_lt := known other (cut.passed.attended.registered _
        (List.mem_append_right _ (List.mem_cons_of_mem _ waits)))
      omega
    · exact .inr (.inr born)

/-- The instructions that are left for a round that has come as far. -/
theorem exists_more (cut : Cut program config pool failed fault earlier machine round)
    {alike : Machine → Machine → Prop} {other : Pool} (mirrored : pool.Mirrored alike other) :
    ∃ more, round.waiting.length + 1 ≤ more ∧ other.registered.length = earlier.length + more := by
  have room : earlier.length + (round.waiting.length + 1) ≤ pool.registered.length :=
    cut.passed.attended.room
  rw [mirrored.registered.length_eq] at room
  exact ⟨other.registered.length - earlier.length, by omega, by omega⟩

/-- A round that goes on with other machines has in common what the older ones have done. -/
theorem shares (cut : Cut program config pool failed fault earlier machine round)
    (ordered : pool.Ordered) {other next : Pool} {progressed : Bool}
    (mirrored : pool.Mirrored (Machine.SameOutside machine.id pool.ledger.nextId) other)
    (swept : other.sweep program config = (next, .ok progressed)) :
    Shares machine.id pool.ledger.nextId failed next := by
  have spares := Machine.spares_sameOutside machine.id pool.ledger.nextId
  obtain ⟨mirror, ahead⟩ := cut.ahead spares mirrored (cut.passed.id_lt ordered)
  obtain ⟨final, finished, rfl, _⟩ := exists_turns_of_sweep swept
  obtain ⟨more, _, enough⟩ := cut.exists_more mirrored
  rw [enough, Round.turns_add more ahead.same] at finished
  have waiting : ∀ other ∈ mirror.waiting, machine.id ≤ other.id := by
    intro other otherMem
    obtain ⟨own, ownMem, related⟩ := exists_mem_left ahead.mirrored.waiting other otherMem
    rw [spares.id related]
    rcases List.mem_cons.mp ownMem with rfl | ownMem
    · exact Nat.le_refl _
    · exact Nat.le_of_lt (cut.passed.lt_id ordered own ownMem)
  have onward := onward_of_turns waiting finished
  have atRest : List.Forall₂ (Machine.SameOutside machine.id pool.ledger.nextId)
      round.atRest mirror.atRest :=
    List.rel_append ahead.mirrored.ledger.retired
      (List.rel_append ahead.mirrored.visited ahead.mirrored.born)
  have refusals : round.ledger.refusals = mirror.ledger.refusals := ahead.mirrored.ledger.refusals
  have globalSteps : round.ledger.globalSteps = mirror.ledger.globalSteps :=
    ahead.mirrored.ledger.globalSteps
  constructor
  · intro own ownMem outside
    obtain ⟨other, otherMem, related⟩ :=
      exists_mem_right atRest own (cut.mem_atRest ordered ownMem outside)
    rw [← spares.eq related outside, (members_retireHalted _).mem_iff]
    exact Round.mem_members_of_mem_atRest (onward.atRest otherMem)
  · obtain ⟨_, _, rfl⟩ := cut.failed_eq
    have after := onward.refusals
    rw [← refusals] at after
    exact after
  · obtain ⟨_, _, rfl⟩ := cut.failed_eq
    have after := onward.globalSteps
    rw [← globalSteps] at after
    exact after

/-- With all machines from the one at fault on behind the last instruction, the round goes on. -/
theorem exists_comparable (cut : Cut program config pool failed fault earlier machine round)
    (ordered : pool.Ordered) : ∃ other next progressed,
      pool.Mirrored (Machine.SameOutside machine.id pool.ledger.nextId) other ∧
        other.sweep program config = (next, .ok progressed) := by
  have spares := Machine.spares_park program machine.id pool.ledger.nextId
  have mirrored := pool.mirrored_park program machine.id pool.ledger.nextId
  obtain ⟨mirror, ahead⟩ := cut.ahead spares mirrored (cut.passed.id_lt ordered)
  obtain ⟨more, room, enough⟩ := cut.exists_more mirrored
  have idle : ∀ other ∈ mirror.waiting, other.pending program = false := by
    intro other otherMem
    obtain ⟨own, ownMem, rfl⟩ := exists_mem_left ahead.mirrored.waiting other otherMem
    have within := cut.passed.attended.registered own (List.mem_append_right _ ownMem)
    have own_lt := ordered.tells.id_lt (List.mem_append_right _ within)
    apply Machine.pending_park
    rcases List.mem_cons.mp ownMem with rfl | ownMem
    · omega
    · have younger := cut.passed.lt_id ordered own ownMem
      omega
  have length : mirror.waiting.length ≤ more := by
    rw [← ahead.mirrored.waiting.length_eq]
    exact room
  obtain ⟨final, finished⟩ := Round.exists_turns_of_idle config idle length
  have comparable := mirrored.imp fun _ _ related => spares.sameOutside related
  refine ⟨_, final.toPool.retireHalted, final.progressed, comparable, ?_⟩
  rw [sweep, enough, Round.turns_add more ahead.same, finished]

end Cut

/-- Machines of one pool stand in the same order, whether or not those that have halted are still
registered. -/
theorem machines_retireHalted {pool : Pool} (tells : pool.ledger.Tells pool.members) :
    pool.retireHalted.machines = pool.machines := by
  have same : pool.retireHalted.machines.Perm pool.machines :=
    (machines_perm_members _).trans
      ((members_retireHalted pool).trans (machines_perm_members pool).symm)
  apply same.eq_of_pairwise _ (pairwise_mergeSort_key Machine.id _)
    (pairwise_mergeSort_key Machine.id _)
  intro first second firstMem secondMem le ge
  apply List.inj_on_of_nodup_map tells.nodup_ids _ _ (Nat.le_antisymm le ge)
  · exact (machines_perm_members pool).mem_iff.mp (same.mem_iff.mp firstMem)
  · exact (machines_perm_members pool).mem_iff.mp secondMem

/-- What `exec` leaves of a machine that it stops in a fault, and, whatever rounds and runs have led
to a pool, what a round leaves of the pool that ends in a fault. -/
theorem sweep_cutOff (program : Program) :
    (∀ (config : Machine.Config) (machine next : Machine) (fault : Fault) (event? : Option Event),
      machine.exec program config = ⟨next, .error fault, event?⟩ →
      (∃ limit, fault = .stepLimit machine.id limit ∧ next = machine) ∨
        ∃ capacity, fault = .tapeOverflow machine.id capacity ∧
          next = { machine with steps := machine.steps + 1 }) ∧
    ∀ (config : Config) (input : Input) (pool failed : Pool) (fault : Fault),
      Reachable program config input pool →
      pool.sweep program config = (failed, .error fault) →
      ∃ machine, CutOff program config pool failed fault machine := by
  constructor
  · intro config machine next fault event? executed
    exact (Machine.faulted_of_exec executed).2
  intro config input pool failed fault reachable swept
  have ordered :=
    (ordered_kept program config).of_reachable (ordered_initial config input) reachable
  have tells : failed.ledger.Tells failed.members := by
    have after := tells_of_reachable reachable.sweep
    rwa [swept] at after
  have grows := (grows_kept program config pool).sweep (.refl pool)
  rw [swept] at grows
  obtain ⟨earlier, machine, round, cut⟩ := exists_cut swept
  refine ⟨machine, cut.registered, cut.pending, ?_, ?_, cut.shares ordered,
    cut.exists_comparable ordered, ?_, ?_, ?_, ?_, ?_, rfl, rfl, ?_⟩
  · obtain ⟨next, faulted, rfl⟩ := cut.failed_eq
    exact ⟨next, by simp [Round.toPool, Round.putBack], faulted⟩
  · intro other otherMem live older
    obtain ⟨move, moveMem, rfl⟩ :=
      List.mem_map.mp (cut.passed.mem_moves_of_id_lt ordered otherMem live older)
    obtain ⟨next, nextMem, plays⟩ := cut.passed.played move moveMem live
    obtain ⟨_, _, rfl⟩ := cut.failed_eq
    exact ⟨next, Round.mem_members_of_mem_atRest nextMem, plays⟩
  · intro other otherMem live younger
    have waits := cut.passed.mem_waiting_of_lt_id ordered otherMem live younger
    obtain ⟨_, _, rfl⟩ := cut.failed_eq
    simp [Round.toPool, Round.putBack, waits]
  · intro other otherMem halted
    obtain ⟨grown, grownMem, machineGrows⟩ := grows.machines other otherMem
    rwa [machineGrows.halted halted] at grownMem
  · have counted := cut.passed.globalSteps
    rw [cut.passed.countP_pending ordered] at counted
    obtain ⟨_, _, rfl⟩ := cut.failed_eq
    exact counted
  · exact fun other otherMem => find?_report tells otherMem
  · rw [report, List.map_map, ← machines_ids tells]
    rfl
  · rw [report, report, machines_retireHalted tells]
    rfl

/-- A machine that may execute nothing does not change. When two instructions are left for all
machines together, the second round ends in the turn of the second machine, after the first has
forked again. -/
theorem forkTwice_cutOff :
    (∃ next, (Machine.initial {} ⟨[]⟩).exec forkTwice { maxSteps := some 0 } =
        ⟨next, .error (.stepLimit 0 0), none⟩ ∧ next = Machine.initial {} ⟨[]⟩) ∧
    ∃ pool failed machine, Reachable forkTwice { maxGlobalSteps := some 2 } ⟨[]⟩ pool ∧
      pool.sweep forkTwice { maxGlobalSteps := some 2 } = (failed, .error (.globalStepLimit 2)) ∧
      failed.ledger.nextId = 3 ∧
      CutOff forkTwice { maxGlobalSteps := some 2 } pool failed (.globalStepLimit 2) machine := by
  obtain ⟨alone, together⟩ := sweep_cutOff forkTwice
  constructor
  · obtain ⟨next, executed⟩ : ∃ next, (Machine.initial {} ⟨[]⟩).exec forkTwice
        { maxSteps := some 0 } = ⟨next, .error (.stepLimit 0 0), none⟩ := ⟨_, rfl⟩
    refine ⟨next, executed, ?_⟩
    rcases alone _ _ _ _ _ executed with ⟨_, _, same⟩ | ⟨_, other, _⟩
    · exact same
    · contradiction
  · have reachable : Reachable forkTwice { maxGlobalSteps := some 2 } ⟨[]⟩ _ := .sweep .initial
    obtain ⟨failed, swept, nextId⟩ : ∃ failed,
        ((initial { maxGlobalSteps := some 2 } ⟨[]⟩).sweep forkTwice
          { maxGlobalSteps := some 2 }).1.sweep forkTwice { maxGlobalSteps := some 2 } =
          (failed, .error (.globalStepLimit 2)) ∧ failed.ledger.nextId = 3 := ⟨_, rfl, rfl⟩
    obtain ⟨machine, cutOff⟩ := together _ _ _ _ _ reachable swept
    exact ⟨_, failed, machine, reachable, swept, nextId, cutOff⟩

end Pool

end ForkTape
