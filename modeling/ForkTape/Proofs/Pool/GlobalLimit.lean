import ForkTape.Proofs.Pool.Growth

/-!
# Runs under a global limit

The global limit only ever cuts a run short. A run under it does what the same run does without
it, up to the point where the machines have executed as many instructions as the limit admits and
one more would follow; there it stops, and what it leaves is an earlier state of the run without
the limit.

`Curbed` compares in this way what is left by a turn, by the turns of a round, by a round and by
a run. Where one of these is made of others in sequence, so is the comparison (`curbed_sequel`).
-/

namespace ForkTape.Pool

/-- The configuration with another global limit. -/
def Config.withGlobalLimit (limit : Limit) (config : Config) : Config :=
  { config with maxGlobalSteps := limit }

/-- How what is left under a global limit compares with what is left without one. -/
inductive Curbed (limit : Nat) :
    Pool × Except Fault α → Pool × Except Fault α → Prop
  /-- The limit is not exceeded and makes no difference. -/
  | finished {pool : Pool} {value : α} (within : pool.ledger.globalSteps ≤ limit) :
      Curbed limit (pool, .ok value) (pool, .ok value)
  /-- A fault comes before the limit is reached. -/
  | faulted {pool : Pool} {fault : Fault} (within : pool.ledger.globalSteps < limit) :
      Curbed limit (pool, .error fault) (pool, .error fault)
  /-- The limit is reached and an instruction would follow. -/
  | stopped {pool : Pool} {unlimited : Pool × Except Fault α}
      (reached : pool.ledger.globalSteps = limit) (grows : pool.Grows unlimited.1)
      (beyond : ∀ value, unlimited.2 = .ok value → limit < unlimited.1.ledger.globalSteps) :
      Curbed limit (pool, .error (.globalStepLimit limit)) unlimited

/-- Go on from what is left, unless a fault has ended it. -/
def sequel (next : Pool → α → Pool × Except Fault β) :
    Pool × Except Fault α → Pool × Except Fault β
  | (pool, .ok value) => next pool value
  | (pool, .error fault) => (pool, .error fault)

theorem curbed_sequel {limit : Nat} {limited unlimited : Pool × Except Fault α}
    {limitedNext unlimitedNext : Pool → α → Pool × Except Fault β}
    (curbed : Curbed limit limited unlimited)
    (goesOn : ∀ pool value, unlimited = (pool, .ok value) → pool.ledger.globalSteps ≤ limit →
      Curbed limit (limitedNext pool value) (unlimitedNext pool value))
    (grows : ∀ pool value, unlimited = (pool, .ok value) →
      pool.Grows (unlimitedNext pool value).1) :
    Curbed limit (sequel limitedNext limited) (sequel unlimitedNext unlimited) := by
  cases curbed with
  | finished within => exact goesOn _ _ rfl within
  | faulted within => exact .faulted within
  | stopped reached growsTo beyond =>
      rcases unlimited with ⟨later, outcome⟩
      cases outcome with
      | error fault => exact .stopped reached growsTo (by simp [sequel])
      | ok value =>
          have growsOn := grows later value rfl
          refine .stopped reached (growsTo.trans growsOn) fun _ _ => ?_
          exact Nat.lt_of_lt_of_le (beyond value rfl) growsOn.globalSteps

namespace Round

/-- What a turn or turns in a round leave, with the pool as it stands then. -/
def settled : Except (Fault × Round) Round → Pool × Except Fault Round
  | .ok round => (round.toPool, .ok round)
  | .error (fault, round) => (round.toPool, .error fault)

theorem settled_fst (result : Except (Fault × Round) Round) :
    (settled result).1 = (left result).toPool := by
  cases result <;> rfl

theorem settled_eq_ok {result : Except (Fault × Round) Round} {pool : Pool} {round : Round}
    (settledEq : settled result = (pool, .ok round)) :
    result = .ok round ∧ pool = round.toPool := by
  cases result with
  | ok after =>
      cases settledEq
      exact ⟨rfl, rfl⟩
  | error aborted => simp [settled] at settledEq

/-- At the global limit no instruction is executed. -/
theorem turn_eq_stopped {program : Program} {config : Config} {limit : Nat} {machine : Machine}
    {round : Round} (pending : machine.pending program = true)
    (reached : limit ≤ round.ledger.globalSteps) :
    turn program (config.withGlobalLimit (some limit)) machine round =
      .error (.globalStepLimit limit, round.putBack machine) := by
  rw [Machine.pending, Bool.and_eq_true, Bool.not_eq_true', decide_eq_true_eq] at pending
  have stopped : (config.withGlobalLimit (some limit)).maxGlobalSteps.reached?
      round.ledger.globalSteps = some limit :=
    Limit.reached?_eq_some_iff.mpr ⟨rfl, reached⟩
  simp only [turn, pending.1, pending.2, if_true, stopped]
  rfl

/-- Before the global limit a turn does what it does without one. -/
theorem turn_eq_of_admitted {program : Program} {config : Config} {limit : Nat}
    {machine : Machine} {round : Round}
    (admitted : machine.pending program = true → round.ledger.globalSteps < limit) :
    turn program (config.withGlobalLimit (some limit)) machine round =
      turn program (config.withGlobalLimit none) machine round := by
  have unchecked : (if machine.ip < program.size then
      (config.withGlobalLimit none).maxGlobalSteps.reached? round.ledger.globalSteps
      else none) = none := by
    split <;> rfl
  cases halted : machine.halted with
  | true => simp [turn, halted]
  | false =>
      have checked : (if machine.ip < program.size then
          (config.withGlobalLimit (some limit)).maxGlobalSteps.reached? round.ledger.globalSteps
          else none) = none := by
        split
        · rename_i inside
          have within := admitted (by simp [Machine.pending, halted, inside])
          simpa [Config.withGlobalLimit, Limit.reached?] using within
        · rfl
      simp only [turn, halted, checked, unchecked]
      rfl

variable {program : Program} {config : Config} {limit : Nat}

theorem turn_curbed {machine : Machine} {round : Round}
    (within : round.ledger.globalSteps ≤ limit) :
    Curbed limit (settled (turn program (config.withGlobalLimit (some limit)) machine round))
      (settled (turn program (config.withGlobalLimit none) machine round)) := by
  have turned := Round.turned program (config.withGlobalLimit none) machine round
  have counted := turned.globalSteps_eq
  by_cases stops : machine.pending program = true ∧ limit ≤ round.ledger.globalSteps
  · rw [turn_eq_stopped stops.1 stops.2]
    refine .stopped (Nat.le_antisymm within stops.2) ?_ ?_
    · rw [settled_fst]
      exact turned.effect.grows
    · intro after ended
      obtain ⟨result, _⟩ := settled_eq_ok (Prod.ext rfl ended)
      rw [result] at counted ⊢
      simp only [left, Except.isOk, Except.toBool, Bool.true_and, stops.1, if_true] at counted
      exact Nat.lt_of_le_of_lt stops.2 (counted ▸ Nat.lt_succ_self _)
  · have admitted : machine.pending program = true → round.ledger.globalSteps < limit := by
      intro pending
      exact Nat.lt_of_not_le fun reached => stops ⟨pending, reached⟩
    rw [turn_eq_of_admitted admitted]
    cases result : turn program (config.withGlobalLimit none) machine round with
    | ok after =>
        rw [result] at counted
        simp only [left, Except.isOk, Except.toBool, Bool.true_and] at counted
        apply Curbed.finished
        change after.ledger.globalSteps ≤ limit
        split at counted
        · rename_i pending
          exact counted ▸ admitted pending
        · exact counted ▸ within
    | error aborted =>
        rw [result] at turned counted
        apply Curbed.faulted
        change aborted.2.ledger.globalSteps < limit
        simp only [left, Except.isOk, Except.toBool, Bool.false_and] at counted
        exact counted ▸ admitted turned.pending_of_error

/-- The turns that are left after a turn let the pool grow. -/
theorem turns_grows (program : Program) (config : Config) (count : Nat) (round : Round) :
    round.toPool.Grows (settled (round.turns program config count)).1 := by
  rw [settled_fst]
  exact (grows_kept program config round.toPool).turns count (Grows.refl _)

theorem turns_curbed (count : Nat) {round : Round} (within : round.ledger.globalSteps ≤ limit) :
    Curbed limit (settled (round.turns program (config.withGlobalLimit (some limit)) count))
      (settled (round.turns program (config.withGlobalLimit none) count)) := by
  induction count generalizing round with
  | zero => exact .finished within
  | succ count ih =>
      rcases round with ⟨visited, waiting, born, ledger, progressed⟩
      cases waiting with
      | nil => exact .finished within
      | cons machine waiting =>
          have inSequence (config : Config) :
              settled (turns program config (count + 1)
                ⟨visited, machine :: waiting, born, ledger, progressed⟩) =
              sequel (fun _ round => settled (round.turns program config count))
                (settled (turn program config machine
                  ⟨visited, waiting, born, ledger, progressed⟩)) := by
            rw [turns]
            cases turn program config machine ⟨visited, waiting, born, ledger, progressed⟩ <;> rfl
          rw [inSequence, inSequence]
          apply curbed_sequel
          · exact turn_curbed within
          · intro pool after turned withinAfter
            obtain ⟨_, rfl⟩ := settled_eq_ok turned
            exact ih withinAfter
          · intro pool after turned
            obtain ⟨_, rfl⟩ := settled_eq_ok turned
            exact turns_grows program _ count after

end Round

variable {program : Program} {config : Config} {limit : Nat}

theorem sweep_curbed (program : Program) (config : Config) {pool : Pool}
    (within : pool.ledger.globalSteps ≤ limit) :
    Curbed limit (pool.sweep program (config.withGlobalLimit (some limit)))
      (pool.sweep program (config.withGlobalLimit none)) := by
  have inSequence (config : Config) : pool.sweep program config =
      sequel (fun pool round => (pool.retireHalted, .ok round.progressed))
        (Round.settled ((Round.start pool).turns program config pool.registered.length)) := by
    rw [sweep]
    cases (Round.start pool).turns program config pool.registered.length <;> rfl
  rw [inSequence, inSequence]
  apply curbed_sequel
  · exact Round.turns_curbed _ within
  · intro pool round _ within
    exact .finished within
  · intro pool round _
    exact grows_retireHalted pool

/-- A run under the limit takes at most as many rounds as the run without it. -/
theorem run_curbed {fuel : Nat} {pool : Pool} {unlimited : Pool × Except Fault Unit}
    (within : pool.ledger.globalSteps ≤ limit)
    (returned : pool.run program (config.withGlobalLimit none) fuel = some unlimited) :
    ∃ limited, pool.run program (config.withGlobalLimit (some limit)) fuel = some limited ∧
      Curbed limit limited unlimited := by
  induction fuel generalizing pool with
  | zero => simp [run, iterate] at returned
  | succ fuel ih =>
      cases undone : pool.isDone with
      | true =>
          rw [run_succ_of_isDone undone, Option.some.injEq] at returned
          subst returned
          exact ⟨_, run_succ_of_isDone undone fuel, .finished within⟩
      | false =>
          have goesOn := run_succ_grows undone returned
          rw [run_succ_of_not_isDone undone] at returned ⊢
          have curbed := sweep_curbed program config within
          revert curbed goesOn returned
          generalize pool.sweep program (config.withGlobalLimit (some limit)) = limitedSweep
          generalize pool.sweep program (config.withGlobalLimit none) = sweep
          intro returned goesOn curbed
          cases curbed with
          | @finished _ progressed within =>
              cases progressed with
              | false =>
                  cases returned
                  exact ⟨_, rfl, .finished within⟩
              | true => exact ih within returned
          | faulted within =>
              cases returned
              exact ⟨_, rfl, .faulted within⟩
          | stopped reached grows beyond =>
              refine ⟨_, rfl, .stopped reached (grows.trans goesOn.1) ?_⟩
              intro value ended
              obtain ⟨progressed, sweepOk⟩ := goesOn.2 value ended
              exact Nat.lt_of_lt_of_le (beyond progressed sweepOk) goesOn.1.globalSteps

/-- Whether a run with this ending does not need more than `limit` instructions. A fault needs
room for one instruction more than have been executed, the one that faults. -/
def Fits (limit : Nat) : Pool × Except Fault Unit → Prop
  | (pool, .ok ()) => pool.report.totalSteps ≤ limit
  | (pool, .error _) => pool.report.totalSteps < limit

/-- A run that returns without a global limit returns under every limit, after at most as many
rounds. When it fits, the limit makes no difference. Otherwise it stops when exactly `limit`
instructions have been executed, and its report tells of an earlier state of the same run. -/
theorem run_withGlobalLimit {program : Program} {config : Config} {input : Input} {fuel : Nat}
    {ending : Pool × Except Fault Unit} (limit : Nat)
    (returned : (initial (config.withGlobalLimit none) input).run program
      (config.withGlobalLimit none) fuel = some ending) :
    (Fits limit ending →
      (initial (config.withGlobalLimit (some limit)) input).run program
        (config.withGlobalLimit (some limit)) fuel = some ending) ∧
    (¬ Fits limit ending → ∃ stopped,
      (initial (config.withGlobalLimit (some limit)) input).run program
        (config.withGlobalLimit (some limit)) fuel =
          some (stopped, .error (.globalStepLimit limit)) ∧
      stopped.report.totalSteps = limit ∧ stopped.report.Precedes ending.1.report) := by
  have start : (initial (config.withGlobalLimit none) input).ledger.globalSteps ≤ limit :=
    Nat.zero_le limit
  obtain ⟨limited, limitedRun, curbed⟩ := run_curbed start returned
  cases curbed with
  | finished within => exact ⟨fun _ => limitedRun, fun excess => absurd within excess⟩
  | faulted within => exact ⟨fun _ => limitedRun, fun excess => absurd within excess⟩
  | @stopped stopped _ reached grows beyond =>
      refine ⟨?_, fun _ => ⟨stopped, limitedRun, reached, grows.report_precedes⟩⟩
      intro fits
      have atLeast : limit ≤ ending.1.ledger.globalSteps := reached ▸ grows.globalSteps
      rcases ending with ⟨pool, outcome⟩
      cases outcome with
      | ok value => exact absurd (beyond value rfl) (Nat.not_lt.mpr fits)
      | error fault => exact absurd fits (Nat.not_lt.mpr atLeast)

/-- The program that adds one to its cell and forks. -/
def incFork : Program where
  instructions := #[.inc, .fork]
  offsets := #[0, 1]
  pairing := ⟨#[none, none]⟩
  paired := rfl

/-- Both machines halt after two instructions in all, which a limit of two admits and a limit of
one does not. -/
theorem incFork_run_withGlobalLimit :
    ∃ pool, (initial {} ⟨[]⟩).run incFork (Config.withGlobalLimit none {}) 4 =
        some (pool, .ok ()) ∧
      (initial {} ⟨[]⟩).run incFork (Config.withGlobalLimit (some 2) {}) 4 =
        some (pool, .ok ()) ∧
      ∃ stopped, (initial {} ⟨[]⟩).run incFork (Config.withGlobalLimit (some 1) {}) 4 =
          some (stopped, .error (.globalStepLimit 1)) ∧
        stopped.report.totalSteps = 1 ∧ stopped.report.Precedes pool.report := by
  obtain ⟨pool, returned, total⟩ : ∃ pool, (initial {} ⟨[]⟩).run incFork
      (Config.withGlobalLimit none {}) 4 = some (pool, .ok ()) ∧ pool.report.totalSteps = 2 :=
    ⟨_, rfl, rfl⟩
  refine ⟨pool, returned, (run_withGlobalLimit 2 returned).1 ?_,
    (run_withGlobalLimit 1 returned).2 ?_⟩
  · exact Nat.le_of_eq total
  · intro fits
    rw [Fits, total] at fits
    exact Nat.not_succ_le_self 1 fits

end ForkTape.Pool
