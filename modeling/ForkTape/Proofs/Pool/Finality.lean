import ForkTape.Proofs.Pool.Attendance
import ForkTape.Proofs.Pool.Order
import ForkTape.Proofs.Pool.StepCount
import Mathlib.Data.List.Forall2

/-!
# Faults are final

No round ends in a fault because of a machine that is not there: the one whose turn it is stands in
the registry, and it stays there when halted machines are retired (`Move.Known`).

A round ends in a fault when a machine is barred from executing the instruction that it has come to
(`Barred`), and it stays barred: nobody else touches it, it does not get past the instruction, and
the counts that the limits are held against never fall. So every later round ends in a fault as
well, at the latest when it comes to this machine, and so does every later run (`Stuck`). Which
fault it is may change. A machine that keeps moving past its last cell is counted each time, until
it comes to one of the limits.

Only behind the global limit nothing changes any more, for nobody executes an instruction there.
Machines that have no instruction left may still halt (`Spent`).
-/

namespace ForkTape

/-- The faults in which rounds and runs end, each with what it takes for it to arise. -/
inductive Fault.Arises (config : Pool.Config) : Fault → Prop
  | stepLimit {machine limit : Nat} (limited : config.machine.maxSteps = some limit) :
      Arises config (.stepLimit machine limit)
  | globalStepLimit {limit : Nat} (limited : config.maxGlobalSteps = some limit) :
      Arises config (.globalStepLimit limit)
  | tapeOverflow {machine capacity : Nat} (rejects : config.machine.overflow = .reject) :
      Arises config (.tapeOverflow machine capacity)

namespace Pool

variable {program : Program} {config : Config} {input : Input}

/-! ## Machines that are looked up -/

/-- A registered machine is found by its id. -/
theorem find?_of_ascending {pool : Pool} (ascending : pool.ids.Pairwise (· < ·))
    {machine : Machine} (machineMem : machine ∈ pool.registered) :
    pool.find? machine.id = some machine := by
  have nodup : (pool.registered.map Machine.id).Nodup := ascending.imp Nat.ne_of_lt
  rw [find?]
  cases found : pool.registered.find? fun other => other.id == machine.id with
  | none =>
      have absent := List.find?_eq_none.mp found machine machineMem
      exact absurd (beq_self_eq_true machine.id) absent
  | some other =>
      have same := List.find?_some found
      rw [List.inj_on_of_nodup_map nodup (List.mem_of_find?_eq_some found) machineMem
        (beq_iff_eq.mp same)]

/-- The machine whose turn it is can be looked up in the registry. -/
structure Move.Known (program : Program) (config : Config) (move : Move) : Prop where
  registered : (move.round.putBack move.machine).toPool.find? move.machine.id = some move.machine
  /-- When it has come to a `fork`, it is still there after halted machines have been retired. -/
  atFork : ∀ next event?,
    move.machine.exec program config.machine = ⟨next, .ok .atFork, event?⟩ →
      (move.round.putBack next).toPool.retireHalted.find? move.machine.id = some next

theorem Move.known_of_ascending {machine : Machine} {round : Round}
    (ascending : (round.putBack machine).toPool.ids.Pairwise (· < ·)) :
    Known program config ⟨machine, round⟩ where
  registered := find?_of_ascending ascending (by simp [Round.toPool, Round.putBack])
  atFork next event? executed := by
    cases Machine.executes_of_exec executed with
    | reachedFork live found admitted =>
        have same : machine.count.id = machine.id := rfl
        have fewer : (round.putBack machine.count).toPool.retireHalted.ids.Sublist
            (round.putBack machine.count).toPool.ids := List.filter_sublist.map _
        have stays : machine.count ∈ (round.putBack machine.count).toPool.retireHalted.registered :=
          List.mem_filter.mpr
            ⟨by simp [Round.toPool, Round.putBack], by simpa [Machine.count] using live⟩
        rw [Round.ids_putBack same] at fewer
        exact find?_of_ascending (ascending.sublist fewer) stays

/-- In a round of a reachable pool nobody is unknown. -/
theorem known_of_reachable {pool : Pool} (reachable : Reachable program config input pool) :
    ∀ move ∈ pool.moves program config, move.Known program config := by
  have recorded : Recorded program config fun moves pool =>
      (∀ move ∈ moves, move.Known program config) ∧ pool.Ordered := by
    constructor
    · rintro past machine round ⟨known, ordered⟩
      refine ⟨?_, (ordered_kept program config).turn (Round.turned program config _ _) ordered⟩
      rw [List.forall_mem_append, List.forall_mem_singleton]
      exact ⟨known, Move.known_of_ascending ordered.ascending⟩
    · rintro past pool ⟨known, ordered⟩
      exact ⟨known, (ordered_kept program config).retire ordered⟩
  have ordered :=
    (ordered_kept program config).of_reachable (ordered_initial config input) reachable
  have nobody : ∀ move ∈ ([] : List Move), move.Known program config := by simp
  exact (recorded.sweep ⟨nobody, ordered⟩).1

/-! ## Machines that are barred -/

/-- The machine cannot execute the instruction that it has come to when `globalSteps` instructions
have been executed by all machines together. -/
inductive Barred (program : Program) (config : Config) (globalSteps : Nat) (machine : Machine) :
    Prop
  | byGlobalLimit {limit : Nat} (pending : machine.pending program = true)
      (reached : config.maxGlobalSteps.reached? globalSteps = some limit)
  | byOwnLimit {limit : Nat} (pending : machine.pending program = true)
      (reached : config.machine.maxSteps.reached? machine.steps = some limit)
  | byTape (live : machine.halted = false)
      (found : program.instruction? machine.ip = some .right)
      (last : machine.tape.right config.machine.overflow = (machine.tape, .rejected))

namespace Barred

variable {globalSteps later : Nat} {machine : Machine}

/-- A machine that is barred runs. -/
theorem live (barred : Barred program config globalSteps machine) : machine.halted = false := by
  cases barred with
  | byGlobalLimit pending reached => exact Machine.live_of_pending pending
  | byOwnLimit pending reached => exact Machine.live_of_pending pending
  | byTape live found last => exact live

/-- A barred machine stays barred while others execute instructions. -/
theorem mono (barred : Barred program config globalSteps machine) (le : globalSteps ≤ later) :
    Barred program config later machine := by
  cases barred with
  | byGlobalLimit pending reached =>
      exact .byGlobalLimit pending (Limit.reached?_mono reached le)
  | byOwnLimit pending reached => exact .byOwnLimit pending reached
  | byTape live found last => exact .byTape live found last

end Barred

namespace Round

variable {machine : Machine} {round : Round}

/-- The turn of a barred machine ends in a fault. -/
theorem Turned.not_ok_of_barred {after : Round}
    (turned : Turned program config machine round (.ok after)) :
    ¬ Barred program config round.ledger.globalSteps machine := by
  intro barred
  obtain ⟨heirs, become, _⟩ := turned.leaves
  cases barred with
  | byGlobalLimit pending reached =>
      rw [turned.admitted pending] at reached
      contradiction
  | byOwnLimit pending reached =>
      have live := Machine.live_of_pending pending
      cases become with
      | rested halted => exact absurd halted (Bool.eq_false_iff.mp live)
      | ended _ missing =>
          have behind : program.size ≤ machine.ip := Array.getElem?_eq_none_iff.mp missing
          simp [Machine.pending, Nat.not_lt.mpr behind] at pending
      | advanced _ _ _ admitted _ => simp [reached] at admitted
      | refused _ _ admitted => simp [reached] at admitted
      | forked _ _ admitted => simp [reached] at admitted
  | byTape live found last =>
      cases become with
      | rested halted => exact absurd halted (Bool.eq_false_iff.mp live)
      | ended _ missing => simp [found] at missing
      | @advanced instruction next event? _ foundToo plain admitted performed =>
          obtain rfl := Option.some.inj (found.symm.trans foundToo)
          simp [Machine.perform, Machine.count, last] at performed
      | refused _ foundToo _ => simp [found] at foundToo
      | forked _ foundToo _ => simp [found] at foundToo

/-- A turn that ends in a fault leaves a machine in the registry that is barred. -/
theorem Turned.barred_of_error {fault : Fault} {left : Round}
    (turned : Turned program config machine round (.error (fault, left))) :
    fault.Arises config ∧ ∃ next ∈ left.toPool.registered,
      Barred program config left.ledger.globalSteps next := by
  have registered (next : Machine) (round : Round) :
      next ∈ (round.putBack next).toPool.registered := by
    simp [toPool, putBack]
  cases turned with
  | stopped live pending reached =>
      have pending : machine.pending program = true := by simp [Machine.pending, live, pending]
      obtain ⟨limited, _⟩ := Limit.reached?_eq_some_iff.mp reached
      exact ⟨.globalStepLimit limited, machine, registered _ _, .byGlobalLimit pending reached⟩
  | faulted live admitted executed =>
      cases Machine.executes_of_exec executed with
      | limited _ found reached =>
          obtain ⟨limited, _⟩ := Limit.reached?_eq_some_iff.mp reached
          exact ⟨.stepLimit limited, machine, registered _ _,
            .byOwnLimit (Machine.pending_of_found live found) reached⟩
      | rejected _ found _ last =>
          exact ⟨.tapeOverflow (Tape.of_right_rejected last).1, machine.count,
            registered _ _, .byTape live found last⟩

end Round

/-! ## Pools that are stuck -/

/-- Some machine of the registry is barred. -/
def Stuck (program : Program) (config : Config) (pool : Pool) : Prop :=
  ∃ machine ∈ pool.registered, Barred program config pool.ledger.globalSteps machine

variable {pool later left : Pool} {fault : Fault}

/-- The fault in which a round ends is that of a turn, which leaves the pool. -/
theorem exists_turned_of_fault (swept : pool.sweep program config = (left, .error fault)) :
    ∃ machine round after, left = Round.toPool after ∧
      Round.Turned program config machine round (.error (fault, after)) := by
  have ends : SweepEnds program config (fun _ _ => True) pool (pool.sweep program config) :=
    sweepEnds (fun _ _ => trivial) trivial
  rw [swept] at ends
  cases ends with
  | aborted last before turned => exact ⟨_, _, _, rfl, turned ▸ Round.turned program config _ _⟩

/-- A round that ends in a fault leaves the pool stuck. -/
theorem stuck_of_fault (swept : pool.sweep program config = (left, .error fault)) :
    fault.Arises config ∧ left.Stuck program config := by
  obtain ⟨machine, round, after, rfl, turned⟩ := exists_turned_of_fault swept
  exact turned.barred_of_error

namespace Stuck

/-- A round of a pool that is stuck ends in a fault. -/
theorem exists_fault (stuck : pool.Stuck program config) :
    ∃ left fault, pool.sweep program config = (left, .error fault) := by
  rcases swept : pool.sweep program config with ⟨left, outcome⟩
  cases outcome with
  | error fault => exact ⟨left, fault, rfl⟩
  | ok progressed =>
      obtain ⟨machine, machineMem, barred⟩ := stuck
      obtain ⟨round, _, finished, le⟩ := exists_move_of_live swept machineMem barred.live
      have turned := Round.turned program config machine round
      cases ended : round.turn program config machine with
      | ok after =>
          rw [ended] at turned
          exact (turned.not_ok_of_barred (barred.mono le)).elim
      | error aborted =>
          rw [ended] at finished
          contradiction

/-- A pool that is stuck stays stuck. -/
theorem leads (stuck : pool.Stuck program config) (leads : Leads program config pool later) :
    later.Stuck program config := by
  apply leads.induction stuck
  intro pool stuck
  obtain ⟨left, fault, swept⟩ := stuck.exists_fault
  rw [swept]
  exact (stuck_of_fault swept).2

theorem isDone_eq_false (stuck : pool.Stuck program config) : pool.isDone = false := by
  obtain ⟨machine, machineMem, barred⟩ := stuck
  exact List.all_eq_false.mpr ⟨machine, machineMem, by simp [barred.live]⟩

/-- A run of a pool that is stuck ends with the first round, in its fault. -/
theorem exists_fault_of_run (stuck : pool.Stuck program config) (fuel : Nat) :
    ∃ left fault, pool.run program config (fuel + 1) = some (left, .error fault) := by
  obtain ⟨left, fault, swept⟩ := stuck.exists_fault
  refine ⟨left, fault, ?_⟩
  rw [run_succ_of_not_isDone stuck.isDone_eq_false, swept]

end Stuck

/-! ## Behind the global limit -/

/-- What may become of a machine when nobody may execute an instruction. -/
inductive Stays (program : Program) (machine : Machine) : Machine → Prop
  | same : Stays program machine machine
  /-- A machine that is behind the last instruction may halt. -/
  | halted (behind : program.size ≤ machine.ip) : Stays program machine machine.halt

namespace Stays

variable {machine next last : Machine}

theorem id_eq (stays : Stays program machine next) : next.id = machine.id := by
  cases stays <;> rfl

theorem trans (first : Stays program machine next) (second : Stays program next last) :
    Stays program machine last := by
  cases first with
  | same => exact second
  | halted behind =>
      cases second with
      | same => exact .halted behind
      | halted _ => exact .halted behind

/-- A turn that comes to no instruction lets a machine stay. -/
theorem of_idle (idle : machine.pending program = false) :
    Stays program machine machine.halt := by
  cases halted : machine.halted with
  | true =>
      rw [Machine.halt_of_halted halted]
      exact .same
  | false =>
      apply Stays.halted
      simpa [Machine.pending, halted] using idle

end Stays

/-- The global limit stops a machine that has an instruction to execute. -/
theorem Round.Turned.eq_of_reached {machine : Machine} {round : Round}
    {result : Except (Fault × Round) Round} {limit : Nat}
    (turned : Turned program config machine round result)
    (pending : machine.pending program = true)
    (reached : config.maxGlobalSteps.reached? round.ledger.globalSteps = some limit) :
    result = .error (.globalStepLimit limit, round.putBack machine) := by
  have refuted (admitted : machine.ip < program.size →
      config.maxGlobalSteps.reached? round.ledger.globalSteps = none) : False := by
    rw [Machine.pending, Bool.and_eq_true, decide_eq_true_eq] at pending
    rw [admitted pending.2] at reached
    contradiction
  cases turned with
  | rested halted => simp [Machine.pending, halted] at pending
  | stopped live _ reachedToo =>
      rw [Option.some.inj (reachedToo.symm.trans reached)]
  | faulted live admitted executed => exact (refuted admitted).elim
  | advanced live admitted executed => exact (refuted admitted).elim
  | halted live admitted executed => exact (refuted admitted).elim
  | atFork live admitted executed resolved => exact (refuted admitted).elim

/-- Nothing has changed since `pool` but that machines behind the last instruction may have
halted. -/
structure Spent (program : Program) (pool later : Pool) : Prop where
  globalSteps : later.ledger.globalSteps = pool.ledger.globalSteps
  nextId : later.ledger.nextId = pool.ledger.nextId
  machines : ∀ machine ∈ pool.members, ∃ next ∈ later.members, Stays program machine next

theorem Spent.refl (program : Program) (pool : Pool) : Spent program pool pool where
  globalSteps := rfl
  nextId := rfl
  machines machine machineMem := ⟨machine, machineMem, .same⟩

/-- Behind the global limit turns and the retiring of halted machines change nothing else. -/
theorem spent_kept {limit : Nat}
    (reached : config.maxGlobalSteps.reached? pool.ledger.globalSteps = some limit) :
    Kept program config (Spent program pool) where
  turn {machine round result} turned before := by
    have there : config.maxGlobalSteps.reached? round.ledger.globalSteps = some limit := by
      rw [← reached]
      exact congrArg _ before.globalSteps
    cases pending : machine.pending program with
    | true =>
        rw [turned.eq_of_reached pending there]
        exact before
    | false =>
        obtain ⟨log, progressed, rfl⟩ := turned.eq_of_idle pending
        refine ⟨before.globalSteps, before.nextId, ?_⟩
        intro other otherMem
        obtain ⟨next, nextMem, stays⟩ := before.machines other otherMem
        have after := (Round.members_toPool ⟨machine.halt :: round.visited, round.waiting,
          round.born, { round.ledger with log := log }, progressed⟩).trans List.perm_middle
        rcases List.mem_cons.mp ((Round.members_toPool_putBack machine round).mem_iff.mp nextMem)
          with rfl | nextMem
        · exact ⟨_, after.mem_iff.mpr List.mem_cons_self, stays.trans (.of_idle pending)⟩
        · exact ⟨next, after.mem_iff.mpr (List.mem_cons_of_mem _ nextMem), stays⟩
  retire {later} before := by
    refine ⟨before.globalSteps, before.nextId, ?_⟩
    intro machine machineMem
    obtain ⟨next, nextMem, stays⟩ := before.machines machine machineMem
    exact ⟨next, later.members_retireHalted.mem_iff.mpr nextMem, stays⟩

/-- Behind the global limit a round can end in no other fault. -/
theorem fault_eq_of_reached {limit : Nat}
    (reached : config.maxGlobalSteps.reached? pool.ledger.globalSteps = some limit)
    (swept : pool.sweep program config = (left, .error fault)) :
    fault = .globalStepLimit limit := by
  have ends : SweepEnds program config
      (fun _ round => pool.ledger.globalSteps ≤ round.ledger.globalSteps) pool
      (pool.sweep program config) := by
    apply sweepEnds _ (Nat.le_refl _)
    intro past machine round after before turned
    have counted := (Round.turned program config machine round).globalSteps_eq
    rw [turned, Round.left] at counted
    rw [counted]
    exact Nat.le_add_right_of_le before
  rw [swept] at ends
  cases ends with
  | aborted last before ended =>
      have turned := ended ▸ Round.turned program config _ _
      have stopped := turned.eq_of_reached turned.pending_of_error
        (Limit.reached?_mono reached before)
      exact congrArg Prod.fst (Except.error.inj stopped)

/-- Lists of entries with the same keys, which are told apart by them, are related one by one when
each entry of the first list is related to one of the second that has its key. -/
theorem forall₂_of_map_eq {α : Type} {related : α → α → Prop} (key : α → Nat)
    {first second : List α} (same : first.map key = second.map key)
    (nodup : (second.map key).Nodup)
    (matched : ∀ entry ∈ first, ∃ other ∈ second, key other = key entry ∧ related entry other) :
    List.Forall₂ related first second := by
  induction first generalizing second with
  | nil =>
      rw [List.map_nil, eq_comm, List.map_eq_nil_iff] at same
      rw [same]
      exact .nil
  | cons entry first ih =>
      cases second with
      | nil => simp at same
      | cons other second =>
          rw [List.map_cons, List.map_cons, List.cons.injEq] at same
          rw [List.map_cons, List.nodup_cons] at nodup
          rw [List.forall_mem_cons] at matched
          obtain ⟨headKey, tailKeys⟩ := same
          obtain ⟨⟨found, foundMem, foundKey, foundRelated⟩, matched⟩ := matched
          constructor
          · rcases List.mem_cons.mp foundMem with rfl | foundMem
            · exact foundRelated
            · rw [headKey] at foundKey
              exact absurd (foundKey ▸ List.mem_map_of_mem foundMem) nodup.1
          · apply ih tailKeys nodup.2
            intro later laterMem
            obtain ⟨found, foundMem, foundKey, foundRelated⟩ := matched later laterMem
            rcases List.mem_cons.mp foundMem with rfl | foundMem
            · have tailMem := List.mem_map_of_mem (f := key) laterMem
              rw [tailKeys, ← foundKey] at tailMem
              exact absurd tailMem nodup.1
            · exact ⟨found, foundMem, foundKey, foundRelated⟩

/-- All machines stay where nothing else changes. -/
theorem Spent.forall₂ (spent : Spent program pool later)
    (tells : pool.ledger.Tells pool.members) (tellsLater : later.ledger.Tells later.members) :
    List.Forall₂ (Stays program) pool.machines later.machines := by
  have ids := machines_ids tellsLater
  apply forall₂_of_map_eq Machine.id
  · rw [machines_ids tells, ids, spent.nextId]
  · exact ids ▸ List.nodup_range
  · intro machine machineMem
    obtain ⟨next, nextMem, stays⟩ :=
      spent.machines machine (pool.machines_perm_members.mem_iff.mp machineMem)
    exact ⟨next, later.machines_perm_members.mem_iff.mpr nextMem, stays.id_eq, stays⟩

/-! ## After a fault -/

/-- A round or a run of the pool ends in `fault` and leaves `left`. -/
inductive Aborts (program : Program) (config : Config) (pool : Pool) : Fault → Pool → Prop
  | sweep {fault : Fault} {left : Pool}
      (swept : pool.sweep program config = (left, .error fault)) :
      Aborts program config pool fault left
  | run {fault : Fault} {left : Pool} {fuel : Nat}
      (returned : pool.run program config fuel = some (left, .error fault)) :
      Aborts program config pool fault left

/-- A run that ends in a fault ends in that of its last round. -/
theorem exists_sweep_of_run {fuel : Nat}
    (returned : pool.run program config fuel = some (left, .error fault)) :
    ∃ last, Leads program config pool last ∧
      last.sweep program config = (left, .error fault) := by
  induction fuel generalizing pool with
  | zero => simp [run, iterate] at returned
  | succ fuel ih =>
      cases undone : pool.isDone with
      | true =>
          rw [run_succ_of_isDone undone] at returned
          cases returned
      | false =>
          rw [run_succ_of_not_isDone undone] at returned
          have first : Leads program config pool (pool.sweep program config).1 := .sweep .refl
          rcases swept : pool.sweep program config with ⟨next, outcome⟩
          rw [swept] at returned first
          cases outcome with
          | error fault =>
              cases returned
              exact ⟨pool, .refl, swept⟩
          | ok progressed =>
              cases progressed with
              | false => cases returned
              | true =>
                  obtain ⟨last, rest, aborted⟩ := ih returned
                  exact ⟨last, first.trans rest, aborted⟩

theorem Aborts.exists_sweep (aborts : Aborts program config pool fault left) :
    ∃ last, Leads program config pool last ∧
      last.sweep program config = (left, .error fault) := by
  cases aborts with
  | sweep swept => exact ⟨pool, .refl, swept⟩
  | run returned => exact exists_sweep_of_run returned

/-- What is known of the fault in which a round or a run of `pool` has ended, and what follows from
it for all rounds and runs of the pool `failed` that it has left. -/
structure Final (program : Program) (config : Config) (pool : Pool) (fault : Fault)
    (failed : Pool) : Prop where
  arises : fault.Arises config
  /-- The machine whose turn it is has always been found in the registry. -/
  known : ∀ later, Leads program config pool later →
    ∀ move ∈ later.moves program config, move.Known program config
  sweep : ∀ later, Leads program config failed later →
    ∃ left again, later.sweep program config = (left, .error again)
  run : ∀ later, Leads program config failed later → ∀ fuel,
    ∃ left again, later.run program config (fuel + 1) = some (left, .error again)
  /-- Behind the global limit the fault stays the same. -/
  same : ∀ limit, fault = .globalStepLimit limit → ∀ later, Leads program config failed later →
    ∀ again left, Aborts program config later again left → again = fault
  globalSteps : ∀ limit, fault = .globalStepLimit limit →
    ∀ later, Leads program config failed later → later.ledger.globalSteps = limit
  /-- Behind the global limit nothing happens to a machine but that it halts. -/
  stays : ∀ limit, fault = .globalStepLimit limit → ∀ later, Leads program config failed later →
    List.Forall₂ (Stays program) failed.machines later.machines

/-- A round that the global limit ends leaves as many instructions executed as it admits. -/
theorem reached_of_swept {limit : Nat}
    (swept : pool.sweep program config = (left, .error (.globalStepLimit limit))) :
    config.maxGlobalSteps.reached? left.ledger.globalSteps = some limit := by
  obtain ⟨machine, round, after, rfl, turned⟩ := exists_turned_of_fault swept
  cases turned with
  | stopped live pending reached => exact reached
  | faulted live admitted executed => cases Machine.executes_of_exec executed

/-- When a round or a run has ended in a fault, so do all later rounds and runs. -/
theorem aborts_final (reachable : Reachable program config input pool)
    (aborts : Aborts program config pool fault left) : Final program config pool fault left := by
  obtain ⟨last, leadsLast, swept⟩ := aborts.exists_sweep
  obtain ⟨arises, stuck⟩ := stuck_of_fault swept
  have reachableLeft : Reachable program config input left := by
    have after := Reachable.sweep (reachable.leads leadsLast)
    rwa [swept] at after
  have spent {limit : Nat} (isLimit : fault = .globalStepLimit limit) {later : Pool}
      (leads : Leads program config left later) : Spent program left later := by
    subst isLimit
    exact (spent_kept (reached_of_swept swept)).leads (.refl program left) leads
  constructor
  · exact arises
  · intro later leads
    exact known_of_reachable (reachable.leads leads)
  · intro later leads
    exact (stuck.leads leads).exists_fault
  · intro later leads
    exact (stuck.leads leads).exists_fault_of_run
  · rintro limit rfl later leads again after abortsAgain
    obtain ⟨middle, leadsMiddle, sweptAgain⟩ := abortsAgain.exists_sweep
    have same := (spent rfl (leads.trans leadsMiddle)).globalSteps
    have reached := reached_of_swept swept
    rw [← same] at reached
    exact fault_eq_of_reached reached sweptAgain
  · rintro limit rfl later leads
    obtain ⟨limited, le⟩ := Limit.reached?_eq_some_iff.mp (reached_of_swept swept)
    rw [(spent rfl leads).globalSteps]
    have within : left.ledger.globalSteps ≤ limit :=
      (globalSteps_le_kept program limited).of_reachable (Nat.zero_le limit) reachableLeft
    exact Nat.le_antisymm within le
  · rintro limit isLimit later leads
    exact (spent isLimit leads).forall₂ (tells_of_reachable reachableLeft)
      (tells_of_reachable (reachableLeft.leads leads))

/-- The limit of two instructions for all machines. -/
def twoTogether : Config where
  maxGlobalSteps := some 2

/-- The second round ends at the global limit when the first machine has executed its last
instruction, so all that comes of another one is that this machine halts. -/
theorem forkRight_final :
    ∃ pool failed later, Reachable forkRight twoTogether ⟨[]⟩ pool ∧
      Aborts forkRight twoTogether pool (.globalStepLimit 2) failed ∧
      Leads forkRight twoTogether failed later ∧
      (failed.registered.map fun machine => (machine.ip, machine.halted)) =
        [(2, false), (1, false)] ∧
      (later.registered.map fun machine => (machine.ip, machine.halted)) =
        [(2, true), (1, false)] ∧
      Final forkRight twoTogether pool (.globalStepLimit 2) failed := by
  have reachable : Reachable forkRight twoTogether ⟨[]⟩ _ := .sweep .initial
  exact ⟨_, _, _, reachable, .sweep rfl, .sweep .refl, rfl, rfl,
    aborts_final reachable (.sweep rfl)⟩

end Pool

end ForkTape
