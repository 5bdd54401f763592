import ForkTape.Proofs.Pool.Growth
import ForkTape.Proofs.Pool.Lineage

/-!
# Runs with room for more machines

The number of machines that may run at once is looked at only when a machine comes to a `fork`, and
shows only in whether the `fork` is refused. So what refuses nothing with room for some machines is
the same with room for more of them: a turn, the turns of a round, a round and a run.

That nothing has been refused is said by comparing the refusals before and after. They are only ever
added to, so what holds of a whole run holds of each of its parts (`Grows.unrefused`).
-/

namespace ForkTape.Pool

/-- The configuration with room for another number of machines. -/
def Config.withMaxLive (budget : Nat) (config : Config) : Config :=
  { config with maxLive := budget }

/-- Nothing has been refused between a state of a pool and a later one. -/
def Unrefused (pool later : Pool) : Prop :=
  later.ledger.refusals = pool.ledger.refusals

/-- A part of what refuses nothing refuses nothing. -/
theorem Grows.unrefused {pool middle later : Pool} (first : pool.Grows middle)
    (second : middle.Grows later) (unrefused : pool.Unrefused later) :
    pool.Unrefused middle ∧ middle.Unrefused later := by
  have within : middle.ledger.refusals.toList <+: pool.ledger.refusals.toList := by
    rw [← show later.ledger.refusals = pool.ledger.refusals from unrefused]
    exact second.refusals
  have same : middle.ledger.refusals = pool.ledger.refusals :=
    Array.toList_inj.mp (within.eq_of_length_le first.refusals.length_le)
  exact ⟨same, unrefused.trans same.symm⟩

variable {program : Program} {config : Config} {budget : Nat} (room : config.maxLive ≤ budget)

include room

namespace Round

/-- A `fork` that is carried out with room for some machines is carried out with room for more. -/
theorem resolveFork_withMaxLive {machine : Machine} {round : Round}
    (unrefused : round.toPool.Unrefused (resolveFork config machine round).toPool) :
    resolveFork (config.withMaxLive budget) machine round =
      resolveFork config machine round := by
  have few := resolved config machine round
  have many := resolved (config.withMaxLive budget) machine round
  revert few many unrefused
  generalize resolveFork config machine round = after
  generalize resolveFork (config.withMaxLive budget) machine round = other
  intro unrefused few many
  cases few with
  | refused full =>
      have sizes := congrArg Array.size unrefused
      simp [visit, book, toPool, Ledger.bookRefusal, Ledger.record, retireHalted,
        Ledger.retire] at sizes
  | forked admitted =>
      cases many with
      | refused full => exact absurd (Nat.lt_of_lt_of_le admitted room) (Nat.not_lt.mpr full)
      | forked _ => rfl

/-- A turn that refuses nothing is the same with room for more machines. -/
theorem turn_withMaxLive {machine : Machine} {round : Round}
    (unrefused : round.toPool.Unrefused (left (turn program config machine round)).toPool) :
    turn program (config.withMaxLive budget) machine round =
      turn program config machine round := by
  have limits : (config.withMaxLive budget).maxGlobalSteps = config.maxGlobalSteps := rfl
  have machines : (config.withMaxLive budget).machine = config.machine := rfl
  simp only [turn, limits, machines] at unrefused ⊢
  split
  · rfl
  split
  · rfl
  rename_i live _ admitted
  rcases executed : machine.exec program config.machine with ⟨next, outcome, event?⟩
  cases outcome with
  | error fault => rfl
  | ok progress =>
      cases progress with
      | advanced => rfl
      | halted => rfl
      | atFork =>
          simp only [live, admitted, executed] at unrefused ⊢
          apply congrArg Except.ok
          apply resolveFork_withMaxLive room
          rw [Unrefused] at unrefused ⊢
          simpa [left, toPool, Ledger.countStep] using unrefused

/-- The turns of a round that refuse nothing are the same with room for more machines. -/
theorem turns_withMaxLive (count : Nat) {round : Round}
    (unrefused : round.toPool.Unrefused (left (round.turns program config count)).toPool) :
    round.turns program (config.withMaxLive budget) count =
      round.turns program config count := by
  induction count generalizing round with
  | zero => rfl
  | succ count ih =>
      rcases round with ⟨visited, waiting, born, ledger, progressed⟩
      cases waiting with
      | nil => rfl
      | cons machine waiting =>
          have grows := (turned program config machine
            ⟨visited, waiting, born, ledger, progressed⟩).effect.grows
          have first := @turn_withMaxLive program config budget room machine
            ⟨visited, waiting, born, ledger, progressed⟩
          rw [turns] at unrefused ⊢
          rw [turns]
          cases turned : turn program config machine
              ⟨visited, waiting, born, ledger, progressed⟩ with
          | error aborted =>
              rw [turned] at unrefused first
              rw [first unrefused]
          | ok after =>
              rw [turned] at unrefused first grows
              have later := (grows_kept program config after.toPool).turns count (.refl _)
              have parts := grows.unrefused later unrefused
              rw [first parts.1]
              exact ih parts.2

end Round

/-- A round that refuses nothing is the same with room for more machines. -/
theorem sweep_withMaxLive {pool : Pool}
    (unrefused : pool.Unrefused (pool.sweep program config).1) :
    pool.sweep program (config.withMaxLive budget) = pool.sweep program config := by
  have same := @Round.turns_withMaxLive program config budget room pool.registered.length
    (.start pool)
  rw [sweep] at unrefused ⊢
  rw [sweep]
  cases turned : (Round.start pool).turns program config pool.registered.length with
  | error aborted =>
      rw [turned] at unrefused same
      rw [same unrefused]
  | ok after =>
      rw [turned] at unrefused same
      rw [same unrefused]

/-- A run that refuses nothing is the same with room for more machines. -/
theorem run_withMaxLive {fuel : Nat} {pool : Pool} {ending : Pool × Except Fault Unit}
    (returned : pool.run program config fuel = some ending)
    (unrefused : pool.Unrefused ending.1) :
    pool.run program (config.withMaxLive budget) fuel = some ending := by
  induction fuel generalizing pool with
  | zero => contradiction
  | succ fuel ih =>
      cases undone : pool.isDone with
      | true => rwa [run_succ_of_isDone undone] at returned ⊢
      | false =>
          have first := (grows_kept program config pool).sweep (.refl pool)
          have later := (run_succ_grows undone returned).1
          have parts := first.unrefused later unrefused
          rw [run_succ_of_not_isDone undone] at returned ⊢
          rw [sweep_withMaxLive room parts.1]
          rcases swept : pool.sweep program config with ⟨next, outcome⟩
          rw [swept] at returned parts
          cases outcome with
          | error fault => exact returned
          | ok progressed =>
              cases progressed with
              | false => exact returned
              | true => exact ih returned parts.2

/-- A run of a program that refuses no `fork` is the same with room for more machines: it takes as
many rounds, ends alike and leaves the same pool, and so the same report. -/
theorem run_of_unrefused {input : Input} {fuel : Nat} {ending : Pool × Except Fault Unit}
    (returned : (initial config input).run program config fuel = some ending)
    (unrefused : ending.1.report.refusals = []) :
    (initial (config.withMaxLive budget) input).run program (config.withMaxLive budget) fuel =
      some ending := by
  apply run_withMaxLive room returned
  rw [report, Array.toList_eq_nil_iff] at unrefused
  exact unrefused

omit room

/-- Room for four machines is enough for two forks one after the other, and more makes no
difference. -/
theorem forkTwice_run_of_unrefused :
    ∃ ending, (initial { maxLive := 4 } ⟨[]⟩).run forkTwice { maxLive := 4 } 4 = some ending ∧
      ending.1.report.refusals = [] ∧ ending.1.ledger.nextId = 4 ∧
      (initial { maxLive := 9 } ⟨[]⟩).run forkTwice { maxLive := 9 } 4 = some ending := by
  obtain ⟨ending, returned, unrefused, nextId⟩ : ∃ ending,
      (initial { maxLive := 4 } ⟨[]⟩).run forkTwice { maxLive := 4 } 4 = some ending ∧
        ending.1.report.refusals = [] ∧ ending.1.ledger.nextId = 4 := ⟨_, rfl, rfl, rfl⟩
  have room : Config.maxLive { maxLive := 4 } ≤ 9 := by decide
  exact ⟨ending, returned, unrefused, nextId, run_of_unrefused room returned unrefused⟩

end ForkTape.Pool
