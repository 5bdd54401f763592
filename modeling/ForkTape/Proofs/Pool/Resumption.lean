import ForkTape.Proofs.Pool.Fairness
import ForkTape.Proofs.Pool.Termination

/-!
# Running a pool after rounds played by hand

Whoever holds a pool can play its rounds one by one and let a run take over at any time. The run
then comes to the ending that it has from the beginning, as long as no round played before has ended
in a fault (`run_afterRounds`): a run plays the same rounds, and it stops where further ones change
nothing.

For in a pool that is done nobody is registered, and a round without registered machines leaves the
pool as it is and says so (`sweep_of_registered_eq_nil`). So a run without a fault leaves a pool for
good (`Leads.eq_of_run`).
-/

namespace ForkTape.Pool

variable {program : Program} {config : Config} {input : Input} {pool after later : Pool}
  {fuel rounds : Nat}

/-! ## Pools that are done -/

/-- Where nobody is registered a round changes nothing. -/
theorem sweep_of_registered_eq_nil (program : Program) (config : Config)
    (empty : pool.registered = []) : pool.sweep program config = (pool, .ok false) := by
  rcases pool with ⟨registered, ledger⟩
  obtain rfl : registered = [] := empty
  simp [sweep, Round.start, Round.turns, Round.toPool, retireHalted, Ledger.retire]

/-- Rounds and runs leave a pool without registered machines as it is. -/
theorem Leads.eq_of_registered_eq_nil (empty : pool.registered = [])
    (leads : Leads program config pool later) : later = pool := by
  have kept {later : Pool} (same : later = pool) : (later.sweep program config).1 = pool := by
    rw [same, sweep_of_registered_eq_nil program config empty]
  exact @Leads.induction program config (fun later => later = pool) _ _ rfl kept leads

/-- What a run without a fault leaves stays as it is. -/
theorem Leads.eq_of_run (reachable : Reachable program config input pool)
    (returned : pool.run program config fuel = some (after, .ok ()))
    (leads : Leads program config after later) :
    later = after ∧ later.sweep program config = (after, .ok false) ∧
      ∀ more, later.run program config (more + 1) = some (after, .ok ()) := by
  have done := isDone_of_run returned
  have empty := registered_eq_nil_of_isDone (.run reachable returned) done
  obtain rfl := leads.eq_of_registered_eq_nil empty
  exact ⟨rfl, sweep_of_registered_eq_nil program config empty, run_succ_of_isDone done⟩

/-! ## Rounds before a run -/

/-- A run begins with the round that is next, unless nobody is registered; then it stops where
that round leads. -/
theorem run_eq_run_sweep (reachable : Reachable program config input pool) {progressed : Bool}
    (finished : (pool.sweep program config).2 = .ok progressed) (fuel : Nat) :
    pool.run program config (fuel + 2) =
      (pool.sweep program config).1.run program config (fuel + 1) := by
  cases undone : pool.isDone with
  | true =>
      have empty := registered_eq_nil_of_isDone reachable undone
      rw [sweep_of_registered_eq_nil program config empty, run_succ_of_isDone undone,
        run_succ_of_isDone undone]
  | false =>
      rw [run_succ_of_not_isDone undone]
      rcases swept : pool.sweep program config with ⟨next, outcome⟩
      rw [swept] at finished
      obtain rfl : outcome = .ok progressed := finished
      obtain rfl := progressed_of_not_isDone undone swept
      rfl

theorem reachable_afterRounds (program : Program) (config : Config) (input : Input)
    (rounds : Nat) : Reachable program config input (afterRounds program config input rounds) := by
  induction rounds with
  | zero => exact .initial
  | succ rounds before => exact .sweep before

/-- A run from the beginning has the rounds that have been played before it in addition. -/
theorem run_initial_add
    (finished : ∀ earlier < rounds, ∃ progressed,
      ((afterRounds program config input earlier).sweep program config).2 = .ok progressed)
    (fuel : Nat) :
    (initial config input).run program config (rounds + fuel + 1) =
      (afterRounds program config input rounds).run program config (fuel + 1) := by
  induction rounds generalizing fuel with
  | zero =>
      rw [Nat.zero_add]
      rfl
  | succ rounds ih =>
      have earlier := ih (fun earlier earlier_lt => finished earlier (Nat.lt_succ_of_lt earlier_lt))
      obtain ⟨progressed, last⟩ := finished rounds (Nat.lt_succ_self rounds)
      calc (initial config input).run program config (rounds + 1 + fuel + 1)
          = (initial config input).run program config (rounds + (fuel + 1) + 1) := by
            rw [Nat.add_right_comm rounds 1 fuel, Nat.add_assoc rounds fuel 1]
        _ = (afterRounds program config input rounds).run program config (fuel + 2) :=
            earlier (fuel + 1)
        _ = (afterRounds program config input (rounds + 1)).run program config (fuel + 1) :=
            run_eq_run_sweep (reachable_afterRounds program config input rounds) last fuel

/-- When so many rounds have been played and none of them has ended in a fault, a run comes to the
ending, if any, that a run from the beginning comes to, and leaves the same pool and so the same
report; it does not matter whether everybody had halted before the last of these rounds. And
whenever a run has ended without a fault, further rounds have nobody to give a turn to and change
nothing, and further runs end in the same way. -/
theorem run_afterRounds
    (finished : ∀ earlier < rounds, ∃ progressed,
      ((afterRounds program config input earlier).sweep program config).2 = .ok progressed) :
    (∀ fuel, (afterRounds program config input rounds).run program config (fuel + 1) =
      (initial config input).run program config (rounds + fuel + 1)) ∧
    (∀ ending, (∃ fuel, (afterRounds program config input rounds).run program config fuel =
        some ending) ↔
      ∃ fuel, (initial config input).run program config fuel = some ending) ∧
    ∀ pool, Leads program config (afterRounds program config input rounds) pool →
      ∀ fuel after, pool.run program config fuel = some (after, .ok ()) →
        ∀ later, Leads program config after later →
          later = after ∧ later.sweep program config = (after, .ok false) ∧
            ∀ more, later.run program config (more + 1) = some (after, .ok ()) := by
  have same := run_initial_add finished
  refine ⟨fun fuel => (same fuel).symm, ?_, ?_⟩
  · intro ending
    constructor
    · rintro ⟨fuel, returned⟩
      exact ⟨rounds + fuel + 1, (same fuel).trans (iterate_mono returned 1)⟩
    · rintro ⟨fuel, returned⟩
      refine ⟨fuel + 1, (same fuel).symm.trans ?_⟩
      rw [Nat.add_comm rounds fuel, Nat.add_assoc]
      exact iterate_mono returned (rounds + 1)
  · intro pool leads fuel after returned later leadsLater
    have reachable := (reachable_afterRounds program config input rounds).leads leads
    exact leadsLater.eq_of_run reachable returned

/-- Three rounds let everybody halt. A run after five leaves what a run from the beginning leaves,
and so does one after another round. -/
theorem forkInc_run_afterRounds :
    (∀ earlier < 5, ∃ progressed, ((afterRounds forkInc {} ⟨[]⟩ earlier).sweep forkInc {}).2 =
      .ok progressed) ∧
    ∃ after, (initial {} ⟨[]⟩).run forkInc {} 6 = some (after, .ok ()) ∧
      (afterRounds forkInc {} ⟨[]⟩ 3).isDone = true ∧
      (afterRounds forkInc {} ⟨[]⟩ 5).run forkInc {} 1 = some (after, .ok ()) ∧
      (after.sweep forkInc {}).1 = after ∧
      (after.sweep forkInc {}).1.run forkInc {} 1 = some (after, .ok ()) := by
  have finished : ∀ earlier < 5, ∃ progressed,
      ((afterRounds forkInc {} ⟨[]⟩ earlier).sweep forkInc {}).2 = .ok progressed
    | 0, _ => ⟨_, rfl⟩
    | 1, _ => ⟨_, rfl⟩
    | 2, _ => ⟨_, rfl⟩
    | 3, _ => ⟨_, rfl⟩
    | 4, _ => ⟨_, rfl⟩
  obtain ⟨resumed, _, final⟩ := run_afterRounds finished
  have returned := (resumed 0).symm
  obtain ⟨after, ran⟩ : ∃ after, (afterRounds forkInc {} ⟨[]⟩ 5).run forkInc {} 1 =
      some (after, .ok ()) := ⟨_, rfl⟩
  obtain ⟨same, _, again⟩ := final _ .refl 1 after ran _ (.sweep .refl)
  exact ⟨finished, after, returned.trans ran, rfl, ran, same, again 0⟩

end ForkTape.Pool
