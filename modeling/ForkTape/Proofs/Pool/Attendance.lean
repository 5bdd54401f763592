import ForkTape.Proofs.Pool.Played

/-!
# Who has a turn

In a round without a fault every live machine of the registry has a turn, and it has not changed
when its turn comes up. The registry may be in any state: a round that has ended in a fault leaves
halted machines in it, and these may be retired before their turns come up, when somebody forks.
(Of rounds that begin with a tidy pool `Played` tells more.)

`Attended` says so of a round under way, and `attended_sweep` of its end. From it follows when a
round reports progress (`progressed_iff_of_swept`).
-/

namespace ForkTape.Pool

variable {program : Program} {config : Config}

namespace Round

variable {machine : Machine} {round after : Round}

theorem Resolved.progressed_eq (resolved : Resolved config machine round after) :
    after.progressed = round.progressed := by
  cases resolved <;> rfl

/-- Nobody joins those waiting, and of those only halted machines leave. -/
theorem Turned.waiting_sublist (turned : Turned program config machine round (.ok after)) :
    after.waiting.Sublist round.waiting ∧
      ∀ other ∈ round.waiting, other.halted = false → other ∈ after.waiting := by
  cases turned with
  | rested halted => exact ⟨.refl _, fun _ otherMem _ => otherMem⟩
  | advanced live admitted executed => exact ⟨.refl _, fun _ otherMem _ => otherMem⟩
  | halted live admitted executed => exact ⟨.refl _, fun _ otherMem _ => otherMem⟩
  | atFork live admitted executed resolved =>
      rw [resolved.waiting_eq]
      refine ⟨List.filter_sublist, ?_⟩
      intro other otherMem live
      exact List.mem_filter.mpr ⟨otherMem, by simp [live]⟩

/-- A round makes progress by the turn of a live machine. -/
theorem Turned.progressed_eq (turned : Turned program config machine round (.ok after)) :
    after.progressed = (round.progressed || !machine.halted) := by
  cases turned with
  | rested halted => simp [visit, halted]
  | advanced live admitted executed => simp [visit, progress, live]
  | halted live admitted executed => simp [visit, progress, live]
  | atFork live admitted executed resolved =>
      rw [resolved.progressed_eq]
      simp [retireHalted, progress, live]

/-- A machine that has no instruction to execute has halted after its turn, and nothing else has
changed but the log. -/
theorem Turned.eq_of_idle {result : Except (Fault × Round) Round}
    (turned : Turned program config machine round result)
    (idle : machine.pending program = false) :
    ∃ log progressed, result = .ok ⟨machine.halt :: round.visited, round.waiting, round.born,
      { round.ledger with log := log }, progressed⟩ := by
  -- Whoever executes an instruction had one to execute.
  have busy {turn : Machine.Turn Machine.Progress}
      (executed : Machine.Executes program config.machine machine turn)
      (goesOn : turn.outcome ≠ .ok .halted) : False := by
    rw [executed.pending_iff.mpr goesOn] at idle
    contradiction
  cases turned with
  | rested halted =>
      refine ⟨round.ledger.log, round.progressed, ?_⟩
      rw [Machine.halt_of_halted halted]
      rfl
  | stopped live pending reached => simp [Machine.pending, live, pending] at idle
  | faulted live admitted executed =>
      exact (busy (Machine.executes_of_exec executed) (by simp)).elim
  | advanced live admitted executed =>
      exact (busy (Machine.executes_of_exec executed) (by simp)).elim
  | halted live admitted executed =>
      cases Machine.executes_of_exec executed with
      | rested halted => exact absurd halted (Bool.eq_false_iff.mp live)
      | ended _ missing => exact ⟨_, _, rfl⟩
  | atFork live admitted executed resolved =>
      exact (busy (Machine.executes_of_exec executed) (by simp)).elim

end Round

/-- A round under way that has begun with `pool` and has come to no fault, after `moves`. -/
structure Attended (program : Program) (config : Config) (pool : Pool) (moves : List Move)
    (round : Round) : Prop where
  /-- There are turns enough for all who wait. -/
  room : moves.length + round.waiting.length ≤ pool.registered.length
  registered : ∀ machine ∈ moves.map Move.machine ++ round.waiting, machine ∈ pool.registered
  sound : ∀ move ∈ moves, (move.result program config).isOk = true ∧
    pool.ledger.globalSteps ≤ move.round.ledger.globalSteps
  /-- Every live machine has had a turn or waits for it. -/
  present : ∀ machine ∈ pool.registered, machine.halted = false →
    machine ∈ moves.map Move.machine ++ round.waiting
  progressed : round.progressed = true ↔ ∃ move ∈ moves, move.machine.halted = false
  globalSteps : pool.ledger.globalSteps ≤ round.ledger.globalSteps

namespace Attended

variable {pool : Pool} {moves : List Move} {machine : Machine} {round after : Round}

theorem start (program : Program) (config : Config) (pool : Pool) :
    Attended program config pool [] (Round.start pool) where
  room := by simp [Round.start]
  registered := by simp [Round.start]
  sound := by simp
  present machine machineMem _ := machineMem
  progressed := by simp [Round.start]
  globalSteps := Nat.le_refl _

/-- A turn without a fault lets the next machine have its turn. -/
theorem turn (before : Attended program config pool moves (round.putBack machine))
    (ended : round.turn program config machine = .ok after) :
    Attended program config pool (moves ++ [⟨machine, round⟩]) after := by
  have turned := Round.turned program config machine round
  rw [ended] at turned
  obtain ⟨sublist, stay⟩ := turned.waiting_sublist
  have grows := turned.globalSteps_eq
  have start := before.registered
  have present := before.present
  simp only [Round.putBack, List.forall_mem_append, List.forall_mem_cons] at start
  simp only [Round.putBack, List.mem_append, List.mem_cons] at present
  constructor
  · have shorter := sublist.length_le
    have room := before.room
    simp only [Round.putBack, List.length_cons] at room
    rw [List.length_append, List.length_singleton]
    omega
  · simp only [List.map_append, List.map_singleton, List.forall_mem_append,
      List.forall_mem_singleton]
    exact ⟨⟨start.1, start.2.1⟩, fun other otherMem => start.2.2 other (sublist.mem otherMem)⟩
  · rw [List.forall_mem_append, List.forall_mem_singleton]
    refine ⟨before.sound, ?_, before.globalSteps⟩
    rw [Move.result, ended]
    rfl
  · intro other otherMem live
    simp only [List.map_append, List.map_singleton, List.mem_append, List.mem_singleton]
    rcases present other otherMem live with done | rfl | waits
    · exact .inl (.inl done)
    · exact .inl (.inr rfl)
    · exact .inr (stay other waits live)
  · rw [turned.progressed_eq, Bool.or_eq_true, Bool.not_eq_true']
    have progressed := before.progressed
    simp only [Round.putBack] at progressed
    simp [progressed, or_and_right, exists_or]
  · rw [Round.left] at grows
    rw [grows]
    exact Nat.le_add_right_of_le before.globalSteps

/-- When all turns have come up nobody is waiting. -/
theorem waiting_eq_nil
    (attended : Attended program config pool (pool.moves program config) round)
    (turned : (Round.start pool).turns program config pool.registered.length = .ok round) :
    round.waiting = [] :=
  waiting_eq_nil_of_room attended.room turned

end Attended

variable {pool next : Pool} {progressed : Bool}

/-- At the end of a round without a fault all who were to have a turn have had it. -/
theorem attended_sweep (swept : pool.sweep program config = (next, .ok progressed)) :
    ∃ round, Attended program config pool (pool.moves program config) round ∧
      round.waiting = [] ∧ round.progressed = progressed := by
  have ends : SweepEnds program config (Attended program config pool) pool
      (pool.sweep program config) :=
    sweepEnds Attended.turn (.start program config pool)
  rw [swept] at ends
  cases ends with
  | finished attended turned => exact ⟨_, attended, attended.waiting_eq_nil turned, rfl⟩

/-- In a round without a fault every live machine has a turn. -/
theorem exists_move_of_live (swept : pool.sweep program config = (next, .ok progressed))
    {machine : Machine} (machineMem : machine ∈ pool.registered)
    (live : machine.halted = false) :
    ∃ round, ⟨machine, round⟩ ∈ pool.moves program config ∧
      (round.turn program config machine).isOk = true ∧
      pool.ledger.globalSteps ≤ round.ledger.globalSteps := by
  obtain ⟨round, attended, nobody, _⟩ := attended_sweep swept
  have present := attended.present machine machineMem live
  rw [nobody, List.append_nil] at present
  obtain ⟨⟨_, round⟩, moveMem, rfl⟩ := List.mem_map.mp present
  obtain ⟨finished, later⟩ := attended.sound _ moveMem
  exact ⟨round, moveMem, finished, later⟩

/-- A round without a fault reports progress exactly when there was a live machine. -/
theorem progressed_iff_of_swept (swept : pool.sweep program config = (next, .ok progressed)) :
    progressed = true ↔ ∃ machine ∈ pool.registered, machine.halted = false := by
  obtain ⟨round, attended, nobody, same⟩ := attended_sweep swept
  rw [← same, attended.progressed]
  constructor
  · rintro ⟨move, moveMem, live⟩
    have registered := attended.registered move.machine
      (List.mem_append_left _ (List.mem_map_of_mem moveMem))
    exact ⟨move.machine, registered, live⟩
  · rintro ⟨machine, machineMem, live⟩
    obtain ⟨round, moveMem, _⟩ := exists_move_of_live swept machineMem live
    exact ⟨_, moveMem, live⟩

end ForkTape.Pool
