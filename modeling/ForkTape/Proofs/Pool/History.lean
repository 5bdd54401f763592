import ForkTape.Proofs.Pool.Moves
import ForkTape.Proofs.Pool.Reachable

/-!
# Histories

A history tells how rounds and runs, whether or not they ended in a fault, have led from the pool
of the first machine to a pool. It lists the pools with which the rounds began, those of runs
among them, and so it tells everything: the turns that came up, how each round ended, and which
machines there were before and after it.

A run is nothing but rounds, so what is kept by rounds holds of histories (`History.induction`).
What is kept by turns, and does not mind halted machines being retired, holds of the list of all
turns that have come up (`Recorded.of_history`).
-/

namespace ForkTape.Pool

/-- The pools to which rounds and runs lead, with the pools with which the rounds began. -/
inductive History (program : Program) (config : Config) (input : Input) :
    List Pool → Pool → Prop
  | initial : History program config input [] (initial config input)
  | sweep {past : List Pool} {pool : Pool} (before : History program config input past pool) :
      History program config input (past ++ [pool]) (pool.sweep program config).1
  | run {past : List Pool} {pool after : Pool} {fuel : Nat} {outcome : Except Fault Unit}
      (before : History program config input past pool)
      (returned : pool.run program config fuel = some (after, outcome)) :
      History program config input (past ++ pool.rounds program config fuel) after

variable {program : Program} {config : Config} {input : Input}

/-- What holds at the beginning and is kept by rounds holds of every history. -/
theorem History.induction {holds : List Pool → Pool → Prop}
    (start : holds [] (Pool.initial config input))
    (sweep : ∀ {past pool}, holds past pool →
      holds (past ++ [pool]) (pool.sweep program config).1)
    {past : List Pool} {pool : Pool} (history : History program config input past pool) :
    holds past pool := by
  induction history with
  | initial => exact start
  | sweep _ before => exact sweep before
  | run _ returned before => exact run_induction sweep _ before returned

/-- A history leads to a reachable pool. -/
theorem History.reachable {past : List Pool} {pool : Pool}
    (history : History program config input past pool) :
    Reachable program config input pool := by
  induction history with
  | initial => exact .initial
  | sweep _ before => exact .sweep before
  | run _ returned before => exact .run before returned

/-- The pools that histories lead to are those that are reachable. -/
theorem reachable_iff_exists_history {pool : Pool} :
    Reachable program config input pool ↔ ∃ past, History program config input past pool := by
  constructor
  · intro reachable
    induction reachable with
    | initial => exact ⟨[], .initial⟩
    | sweep _ before =>
        obtain ⟨past, history⟩ := before
        exact ⟨_, .sweep history⟩
    | run _ returned before =>
        obtain ⟨past, history⟩ := before
        exact ⟨_, .run history returned⟩
  · rintro ⟨past, history⟩
    exact history.reachable

/-- A property of the turns that have come up and of the pool, which turns and the retiring of
halted machines keep. -/
structure Recorded (program : Program) (config : Config) (holds : List Move → Pool → Prop) :
    Prop where
  turn {past : List Move} {machine : Machine} {round : Round}
    (before : holds past (round.putBack machine).toPool) :
    holds (past ++ [⟨machine, round⟩])
      (Round.left (round.turn program config machine)).toPool
  retire {past : List Move} {pool : Pool} (before : holds past pool) :
    holds past pool.retireHalted

namespace Recorded

variable {holds : List Move → Pool → Prop}

/-- A round keeps the property, also when it ends in a fault. -/
theorem sweep (recorded : Recorded program config holds) {past : List Move} {pool : Pool}
    (before : holds past pool) :
    holds (past ++ pool.moves program config) (pool.sweep program config).1 := by
  have start : holds (past ++ []) (Round.start pool).toPool := by
    simpa [Round.start, Round.toPool] using before
  have ends : SweepEnds program config (fun moves round => holds (past ++ moves) round.toPool)
      pool (pool.sweep program config) := by
    apply sweepEnds _ start
    intro earlier machine round after before turned
    have next := recorded.turn before
    rwa [turned, List.append_assoc] at next
  revert ends
  generalize pool.sweep program config = ending
  intro ends
  cases ends with
  | finished kept => exact recorded.retire kept
  | aborted last before turned =>
      have next := recorded.turn before
      rwa [turned, List.append_assoc, ← last] at next

/-- What holds at the beginning and is kept by turns holds of the turns of every history. -/
theorem of_history (recorded : Recorded program config holds)
    (start : holds [] (initial config input)) {past : List Pool} {pool : Pool}
    (history : History program config input past pool) :
    holds (past.flatMap (Pool.moves program config)) pool := by
  apply History.induction _ _ history
  · exact start
  · intro past pool before
    have after := recorded.sweep before
    rwa [List.flatMap_append, List.flatMap_singleton]

end Recorded

end ForkTape.Pool
