import ForkTape.Proofs.Pool.AfterTurn
import ForkTape.Proofs.Pool.Mirror
import ForkTape.Proofs.Pool.StepLimit
import ForkTape.Proofs.Pool.Termination

/-!
# Turns do not depend on later ones

What comes of the turns of a round that have come up does not depend on the machines whose turns
are still to come, but for how many of them run: that is what a `fork` is resolved by. So when
those from some machine on are exchanged for others that run if they do, the turns before are the
same.

`Spares` says of a relation between machines that it exchanges none but machines in a range of ids.
Pools that are related in this way (`Mirrored`) go through the same turns as long as these are not
of exchanged machines (`Round.turn_spared`, `Ahead`). Others can be had which let the round go on
to its end, where it would have ended in a fault: nobody is at fault who stands behind the last
instruction (`Pool.park`).
-/

namespace ForkTape

/-- In related rows every entry of the first has a related one in the second. -/
theorem exists_mem_right {α β : Type} {related : α → β → Prop} {first : List α} {second : List β}
    (rows : List.Forall₂ related first second) :
    ∀ entry ∈ first, ∃ other ∈ second, related entry other := by
  induction rows with
  | nil => simp
  | cons head _ ih =>
      rw [List.forall_mem_cons]
      refine ⟨⟨_, List.mem_cons_self, head⟩, fun entry entryMem => ?_⟩
      obtain ⟨other, otherMem, same⟩ := ih entry entryMem
      exact ⟨other, List.mem_cons_of_mem _ otherMem, same⟩

/-- In related rows every entry of the second has a related one in the first. -/
theorem exists_mem_left {α β : Type} {related : α → β → Prop} {first : List α} {second : List β}
    (rows : List.Forall₂ related first second) :
    ∀ entry ∈ second, ∃ other ∈ first, related other entry :=
  exists_mem_right (List.Forall₂.flip rows)

namespace Machine

/-- A relation of machines that exchanges only machines which have an id from `first` on and had it
before `nextId` was given away, and those for others that run if they do. -/
structure Spares (first nextId : Nat) (alike : Machine → Machine → Prop) : Prop where
  id {machine other : Machine} (related : alike machine other) : other.id = machine.id
  halted {machine other : Machine} (related : alike machine other) :
    other.halted = machine.halted
  eq {machine other : Machine} (related : alike machine other)
    (outside : machine.id < first ∨ nextId ≤ machine.id) : other = machine
  refl {machine : Machine} (outside : machine.id < first ∨ nextId ≤ machine.id) :
    alike machine machine

/-- The same machine, or one that has an id from `first` on and had it before `nextId` was given
away, and another under the same id that runs if it does. -/
structure SameOutside (first nextId : Nat) (machine other : Machine) : Prop where
  id : other.id = machine.id
  halted : other.halted = machine.halted
  eq : machine.id < first ∨ nextId ≤ machine.id → other = machine

theorem spares_sameOutside (first nextId : Nat) :
    Spares first nextId (SameOutside first nextId) where
  id related := related.id
  halted related := related.halted
  eq related := related.eq
  refl _ := ⟨rfl, rfl, fun _ => rfl⟩

theorem Spares.sameOutside {first nextId : Nat} {alike : Machine → Machine → Prop}
    (spares : Spares first nextId alike) {machine other : Machine} (related : alike machine other) :
    SameOutside first nextId machine other :=
  ⟨spares.id related, spares.halted related, spares.eq related⟩

/-- Put a machine in the range behind the last instruction. -/
def park (program : Program) (first nextId : Nat) (machine : Machine) : Machine :=
  if machine.id < first ∨ nextId ≤ machine.id then machine
  else { machine with ip := program.size }

theorem spares_park (program : Program) (first nextId : Nat) :
    Spares first nextId fun machine other => other = machine.park program first nextId where
  id related := by
    rw [related, park]
    split <;> rfl
  halted related := by
    rw [related, park]
    split <;> rfl
  eq related outside := by rw [related, park, if_pos outside]
  refl outside := by rw [park, if_pos outside]

/-- A parked machine has no instruction to execute. -/
theorem pending_park {program : Program} {first nextId : Nat} {machine : Machine}
    (inside : ¬ (machine.id < first ∨ nextId ≤ machine.id)) :
    (machine.park program first nextId).pending program = false := by
  rw [park, if_neg inside, pending, Bool.and_eq_false_iff]
  simp

end Machine

namespace Pool

variable {program : Program} {config : Config} {first nextId : Nat}
  {alike : Machine → Machine → Prop}

open Machine (Spares)

/-- Put those machines of a pool that are in the range behind the last instruction. -/
def park (program : Program) (first nextId : Nat) (pool : Pool) : Pool where
  registered := pool.registered.map (Machine.park program first nextId)
  ledger := { pool.ledger with
    retired := pool.ledger.retired.map (Machine.park program first nextId) }

/-- A pool in which machines are parked holds a parked machine for every one. -/
theorem mirrored_park (program : Program) (first nextId : Nat) (pool : Pool) :
    pool.Mirrored (fun machine other => other = machine.park program first nextId)
      (pool.park program first nextId) := by
  have parked (machines : List Machine) :
      List.Forall₂ (fun machine other => other = machine.park program first nextId) machines
        (machines.map (Machine.park program first nextId)) := by
    rw [List.forall₂_map_right_iff, List.forall₂_same]
    exact fun _ _ => rfl
  refine ⟨parked pool.registered, ?_, rfl, rfl, rfl⟩
  rw [park, Array.toList_map]
  exact parked pool.ledger.retired.toList

namespace Round

variable {machine : Machine} {round mirror : Round}

/-- Machines that are exchanged have halted if those had for which they stand. -/
theorem Mirrored.retireHalted_spared (spares : Spares first nextId alike)
    (mirrored : round.Mirrored alike mirror) :
    round.retireHalted.Mirrored alike mirror.retireHalted := by
  have kept (keep : Bool → Bool) {machines others : List Machine}
      (related : List.Forall₂ alike machines others) :
      List.Forall₂ alike (machines.filter fun machine => keep machine.halted)
        (others.filter fun machine => keep machine.halted) := by
    apply List.rel_filter _ related
    intro machine other related
    simp only [spares.halted related]
  exact ⟨kept not mirrored.visited, kept not mirrored.waiting, kept not mirrored.born,
    mirrored.ledger.retire (List.rel_append (List.rel_append (kept id mirrored.visited)
      (kept id mirrored.waiting)) (kept id mirrored.born)), mirrored.progressed⟩

/-- A `fork` of a machine that is not exchanged is resolved in the same way. -/
theorem Resolved.spared {after mirrorAfter : Round} (spares : Spares first nextId alike)
    (older : machine.id < first) (within : nextId ≤ round.ledger.nextId)
    (mirrored : round.Mirrored alike mirror) (resolved : Resolved config machine round after)
    (mirrorResolved : Resolved config machine mirror mirrorAfter) :
    after.Mirrored alike mirrorAfter := by
  have others := mirrored.others
  cases resolved with
  | forked room =>
      cases mirrorResolved with
      | forked _ =>
          rw [← mirrored.ledger.nextId, ← others]
          exact ((mirrored.book (mirrored.ledger.bookFork _ _)).bear
            (spares.refl (.inr within))).visit (spares.refl (.inl older))
      | refused full => exact absurd room (Nat.not_lt.mpr (others ▸ full))
  | refused full =>
      cases mirrorResolved with
      | forked room => exact absurd room (Nat.not_lt.mpr (others ▸ full))
      | refused _ =>
          rw [← others]
          exact (mirrored.book (mirrored.ledger.bookRefusal _)).visit (spares.refl (.inl older))

/-- The turn of a machine that is not exchanged is the same. -/
theorem turn_spared (spares : Spares first nextId alike) (older : machine.id < first)
    (within : nextId ≤ round.ledger.nextId) (mirrored : round.Mirrored alike mirror) :
    TurnedAlike alike (fun _ => False) (turn program config machine round)
      (turn program config machine mirror) := by
  have globalSteps := mirrored.ledger.globalSteps
  simp only [turn, ← globalSteps]
  split
  · exact .finished (mirrored.visit (spares.refl (.inl older)))
  split
  · exact .faulted (mirrored.putBack (spares.refl (.inl older)))
  have kin := (Machine.executes program config.machine machine).kin_eq
  rcases executed : machine.exec program config.machine with ⟨next, outcome, event?⟩
  rw [executed] at kin
  have same : next.id = machine.id := congrArg Machine.Kin.id kin
  have nextOlder : next.id < first := same ▸ older
  have related : alike next next := spares.refl (.inl nextOlder)
  have booked := mirrored.ledger.recordAny event? event?
  cases outcome with
  | error fault => exact .faulted ((mirrored.book booked).putBack related)
  | ok progress =>
      cases progress with
      | advanced => exact .finished ((mirrored.book booked.countStep).progress.visit related)
      | halted => exact .finished ((mirrored.book (booked.record _ _)).progress.visit related)
      | atFork =>
          have counted := (mirrored.book booked.countStep).progress
          have resolving : nextId ≤ (round.ledger.recordAny event?).countStep.nextId := by
            cases event? <;> exact within
          exact .finished (Resolved.spared spares nextOlder resolving
            (counted.retireHalted_spared spares) (resolved ..) (resolved ..))

/-- Turns after others. -/
theorem turns_add {after : Round} {count : Nat} (more : Nat)
    (turned : round.turns program config count = .ok after) :
    round.turns program config (count + more) = after.turns program config more := by
  induction count generalizing round with
  | zero =>
      cases turned
      rw [Nat.zero_add]
  | succ count ih =>
      rw [Nat.add_right_comm]
      rcases round with ⟨visited, waiting, born, ledger, progressed⟩
      cases waiting with
      | nil =>
          cases turned
          cases more <;> rfl
      | cons machine waiting =>
          rw [turns] at turned ⊢
          cases first : turn program config machine
              ⟨visited, waiting, born, ledger, progressed⟩ with
          | error aborted =>
              rw [first] at turned
              contradiction
          | ok next =>
              rw [first] at turned
              exact ih turned

/-- Where those who wait have no instruction to execute, the round comes to its end. -/
theorem exists_turns_of_idle (config : Config)
    (idle : ∀ machine ∈ round.waiting, machine.pending program = false) {count : Nat}
    (enough : round.waiting.length ≤ count) :
    ∃ after, round.turns program config count = .ok after := by
  rcases round with ⟨visited, waiting, born, ledger, progressed⟩
  obtain ⟨more, rfl⟩ := Nat.exists_eq_add_of_le enough
  obtain ⟨_, _, turned⟩ := turns_of_idle config idle visited born ledger progressed
  rw [turns_add more turned]
  cases more <;> exact ⟨_, rfl⟩

end Round

/-! ## Rounds side by side -/

/-- After `moves`, in which nobody from `first` on has had a turn, a round that has begun with
`other` has come as far as one that has come to `round`. -/
structure Ahead (program : Program) (config : Config) (nextId : Nat)
    (alike : Machine → Machine → Prop) (other : Pool) (moves : List Move) (round mirror : Round) :
    Prop where
  nextId_le : nextId ≤ round.ledger.nextId
  mirrored : round.Mirrored alike mirror
  same : (Round.start other).turns program config moves.length = .ok mirror

variable {pool other : Pool}

theorem Ahead.start (mirrored : pool.Mirrored alike other) :
    Ahead program config pool.ledger.nextId alike other [] (.start pool) (.start other) where
  nextId_le := Nat.le_refl _
  mirrored := ⟨.nil, mirrored.registered, .nil, mirrored.ledger, rfl⟩
  same := rfl

/-- The machine whose turn it is has its place in the other round as well. -/
theorem Ahead.exists_putBack {moves : List Move} {machine : Machine} {round mirror : Round}
    (before : Ahead program config nextId alike other moves (round.putBack machine) mirror) :
    ∃ next others, mirror = others.putBack next ∧ alike machine next ∧
      round.Mirrored alike others := by
  obtain ⟨_, mirrored, _⟩ := before
  rcases mirror with ⟨visited, waiting, born, ledger, progressed⟩
  have waitingRelated := mirrored.waiting
  cases waitingRelated with
  | @cons _ next _ mirrorWaiting related others =>
      exact ⟨next, ⟨visited, mirrorWaiting, born, ledger, progressed⟩, rfl, related,
        ⟨mirrored.visited, others, mirrored.born, mirrored.ledger, mirrored.progressed⟩⟩

/-- A turn of a machine before `first` keeps the rounds side by side. -/
theorem Ahead.turn (spares : Spares first nextId alike) {moves : List Move} {machine : Machine}
    {round after mirror : Round}
    (before : Ahead program config nextId alike other moves (round.putBack machine) mirror)
    (older : machine.id < first) (ended : round.turn program config machine = .ok after) :
    ∃ mirrorAfter,
      Ahead program config nextId alike other (moves ++ [⟨machine, round⟩]) after mirrorAfter := by
  obtain ⟨next, others, rfl, related, mirrored⟩ := before.exists_putBack
  obtain rfl := spares.eq related (.inl older)
  have within : nextId ≤ round.ledger.nextId := before.nextId_le
  have turned := @Round.turn_spared program config _ _ _ _ _ _ spares older within mirrored
  have effect := (Round.turned program config next round).effect
  rw [ended] at turned effect
  cases result : others.turn program config next with
  | error aborted =>
      rw [result] at turned
      cases turned
  | ok mirrorAfter =>
      rw [result] at turned
      cases turned with
      | finished mirrored =>
          refine ⟨mirrorAfter, ?_, mirrored, ?_⟩
          · exact Nat.le_trans before.nextId_le effect.nextId_le
          · rw [List.length_append, List.length_singleton, Round.turns_add 1 before.same,
              Round.turns_succ_putBack, result]
            rfl

end Pool

end ForkTape
