import ForkTape.Proofs.Pool.Attendance
import ForkTape.Proofs.Pool.History

/-!
# After a turn

A machine has one turn in a round, and when it has had it nothing in the round touches it any more:
it stays where it is, or leaves the registry when it has halted. The same holds of those who are
forked off in the round, whose first turn is in the next one. So what a turn leaves of a machine is
what the round leaves of it, also when the round ends in a fault (`mem_members_sweep`).

Before its turn nothing touches a machine either, so it comes to its turn as it was registered when
the round began (`machine_mem_of_mem_moves`).
-/

namespace ForkTape.Pool

variable {program : Program} {config : Config} {pool : Pool}

/-- What holds at the beginning of a round and is kept holds when a turn comes up. -/
theorem Kept.before {holds : Pool → Prop} (kept : Kept program config holds)
    (start : holds pool) : ∀ move ∈ pool.moves program config,
      holds (move.round.putBack move.machine).toPool := by
  have recorded : Recorded program config fun moves pool =>
      (∀ move ∈ moves, holds (move.round.putBack move.machine).toPool) ∧ holds pool := by
    constructor
    · rintro past machine round ⟨earlier, before⟩
      rw [List.forall_mem_append, List.forall_mem_singleton]
      exact ⟨⟨earlier, before⟩, kept.turn (Round.turned program config machine round) before⟩
    · rintro past pool ⟨earlier, before⟩
      exact ⟨earlier, kept.retire before⟩
  have nobody : ∀ move ∈ ([] : List Move), holds (move.round.putBack move.machine).toPool := by
    simp
  exact (recorded.sweep ⟨nobody, start⟩).1

/-- A machine comes to its turn as it was when the round began. -/
theorem machine_mem_of_mem_moves :
    ∀ move ∈ pool.moves program config, move.machine ∈ pool.registered := by
  have ends : SweepEnds program config (Attended program config pool) pool
      (pool.sweep program config) :=
    sweepEnds Attended.turn (.start program config pool)
  revert ends
  generalize pool.sweep program config = ending
  intro ends move moveMem
  cases ends with
  | finished attended turned =>
      exact attended.registered _ (List.mem_append_left _ (List.mem_map_of_mem moveMem))
  | aborted last attended turned =>
      rw [last, List.mem_append, List.mem_singleton] at moveMem
      rcases moveMem with moveMem | rfl
      · exact attended.registered _ (List.mem_append_left _ (List.mem_map_of_mem moveMem))
      · exact attended.registered _ (List.mem_append_right _ List.mem_cons_self)

namespace Round

variable {machine : Machine} {round after : Round}

/-- The machines that have no turn in the round any more. -/
def atRest (round : Round) : List Machine :=
  round.ledger.retired.toList ++ (round.visited ++ round.born)

theorem mem_members_of_mem_atRest (machineMem : machine ∈ round.atRest) :
    machine ∈ round.toPool.members := by
  rw [(members_toPool round).mem_iff]
  simp only [atRest, members, List.mem_append] at machineMem ⊢
  grind

theorem atRest_book {change : Ledger → Ledger}
    (kept : (change round.ledger).retired = round.ledger.retired) :
    (round.book change).atRest = round.atRest := by
  simp only [atRest, book, kept]

theorem atRest_subset_visit (machine : Machine) (round : Round) :
    round.atRest ⊆ (round.visit machine).atRest := by
  intro other otherMem
  simp only [atRest, visit, List.mem_append, List.mem_cons] at otherMem ⊢
  grind

theorem atRest_subset_bear (machine : Machine) (round : Round) :
    round.atRest ⊆ (round.bear machine).atRest := by
  intro other otherMem
  simp only [atRest, bear, List.mem_append, List.mem_cons] at otherMem ⊢
  grind

theorem atRest_subset_retireHalted (round : Round) :
    round.atRest ⊆ round.retireHalted.atRest := by
  intro other otherMem
  simp only [atRest, retireHalted, Ledger.retire, Array.toList_appendList, List.mem_append,
    List.mem_filter] at otherMem ⊢
  grind

theorem Resolved.atRest_subset (resolved : Resolved config machine round after) :
    round.atRest ⊆ after.atRest := by
  cases resolved with
  | forked room =>
      exact List.Subset.trans (atRest_subset_bear _ _) (atRest_subset_visit _ _)
  | refused full => exact atRest_subset_visit _ _

/-- Who has no turn in the round any more has none after the turn of somebody else. -/
theorem Turned.atRest_subset {result : Except (Fault × Round) Round}
    (turned : Turned program config machine round result) :
    round.atRest ⊆ (left result).atRest := by
  have booked (event? : Option Event) :
      (round.book (·.recordAny event?)).atRest = round.atRest :=
    atRest_book (Ledger.retired_recordAny _ _)
  cases turned with
  | rested halted => exact atRest_subset_visit _ _
  | stopped live pending reached => exact List.Subset.refl _
  | faulted live admitted executed => exact booked _ ▸ List.Subset.refl _
  | advanced live admitted executed => exact booked _ ▸ atRest_subset_visit _ _
  | halted live admitted executed => exact booked _ ▸ atRest_subset_visit _ _
  | atFork live admitted executed resolved =>
      rw [← booked]
      exact List.Subset.trans (atRest_subset_retireHalted _) resolved.atRest_subset

end Round

/-- Whoever has no turn in the round any more is left by the round as it is. -/
theorem mem_members_sweep {move : Move} (moveMem : move ∈ pool.moves program config)
    {after : Round} (finished : move.result program config = .ok after) {machine : Machine}
    (machineMem : machine ∈ after.atRest) :
    machine ∈ (pool.sweep program config).1.members := by
  have ends : SweepEnds program config
      (fun moves round => ∀ move ∈ moves, ∀ after, move.result program config = .ok after →
        after.atRest ⊆ round.atRest) pool (pool.sweep program config) := by
    apply sweepEnds _ (by simp)
    intro past other round next before ended
    rw [List.forall_mem_append, List.forall_mem_singleton]
    have stays := (Round.turned program config other round).atRest_subset
    rw [ended] at stays
    constructor
    · intro earlier earlierMem after finished
      exact List.Subset.trans (before earlier earlierMem after finished) stays
    · intro after finished
      rw [Move.result, ended, Except.ok.injEq] at finished
      subst finished
      exact List.Subset.refl _
  revert ends
  generalize pool.sweep program config = ending
  intro ends
  cases ends with
  | @finished round kept turned =>
      apply (members_retireHalted round.toPool).mem_iff.mpr
      exact Round.mem_members_of_mem_atRest (kept move moveMem after finished machineMem)
  | @aborted earlier other round last fault lastMoves before turned =>
      have stays := (Round.turned program config other round).atRest_subset
      rw [turned] at stays
      rw [lastMoves, List.mem_append, List.mem_singleton] at moveMem
      rcases moveMem with moveMem | rfl
      · exact Round.mem_members_of_mem_atRest
          (stays (before move moveMem after finished machineMem))
      · rw [Move.result, turned] at finished
        contradiction

end ForkTape.Pool
