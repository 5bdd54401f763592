import ForkTape.Pool.Round
import ForkTape.Proofs.Iteration
import ForkTape.Proofs.Pool.Turn

/-!
# The moves of a round

A round is a sequence of turns. `Round.moves` lists those that came up, each as the machine whose
turn it was and the round that it stood in, so that what has happened in a round can be told turn
by turn.

`Round.TurnsEnd` says how the turns of a round can end: after turns that did not fault, in a fault
or without one. What is said of rounds is therefore proved for one turn that does not fault
(`Round.turnsEnd`, `sweepEnds`), and what a fault leaves is read off the turn that it ended.
-/

namespace ForkTape.Pool

/-- A turn that came up in a round: the machine as it came to it, and the round without it. -/
structure Move where
  machine : Machine
  round : Round

namespace Move

/-- What the turn has left. -/
def result (program : Program) (config : Config) (move : Move) : Except (Fault × Round) Round :=
  move.round.turn program config move.machine

/-- The instruction that the machine has executed in the turn. A turn that ends in a fault
executes none. -/
def executed? (program : Program) (config : Config) (move : Move) : Option Instruction :=
  if (move.result program config).isOk && !move.machine.halted then
    program.instruction? move.machine.ip
  else none

/-- The id of the machine that was forked off in the turn. -/
def child? (program : Program) (config : Config) (move : Move) : Option Nat :=
  if (Round.left (move.result program config)).ledger.nextId = move.round.ledger.nextId then none
  else some move.round.ledger.nextId

end Move

namespace Round

/-- The turns that come up when up to `count` of the waiting machines have theirs. The last of
them may end in a fault. -/
def moves (program : Program) (config : Config) : Nat → Round → List Move
  | 0, _ => []
  | count + 1, ⟨visited, waiting, born, ledger, progressed⟩ =>
      match waiting with
      | [] => []
      | machine :: waiting =>
          ⟨machine, ⟨visited, waiting, born, ledger, progressed⟩⟩ ::
            match turn program config machine ⟨visited, waiting, born, ledger, progressed⟩ with
            | .ok round => moves program config count round
            | .error _ => []

variable {program : Program} {config : Config} {holds : List Move → Round → Prop}

/-- How turns can end that have come up one after the other, when `holds` is a property of the
moves so far and of the round that every turn without a fault keeps. -/
inductive TurnsEnd (program : Program) (config : Config) (holds : List Move → Round → Prop)
    (moves : List Move) : Except (Fault × Round) Round → Prop
  | finished {after : Round} (kept : holds moves after) :
      TurnsEnd program config holds moves (.ok after)
  | aborted {earlier : List Move} {machine : Machine} {round : Round} {aborted : Fault × Round}
      (last : moves = earlier ++ [⟨machine, round⟩])
      (before : holds earlier (round.putBack machine))
      (turned : turn program config machine round = .error aborted) :
      TurnsEnd program config holds moves (.error aborted)

/-- The turns of a round end in one of these ways. -/
theorem turnsEnd
    (kept : ∀ {past machine round after}, holds past (round.putBack machine) →
      turn program config machine round = .ok after → holds (past ++ [⟨machine, round⟩]) after)
    (count : Nat) {past : List Move} {round : Round} (before : holds past round) :
    TurnsEnd program config holds (past ++ round.moves program config count)
      (round.turns program config count) := by
  induction count generalizing past round with
  | zero =>
      rw [moves, List.append_nil]
      exact .finished before
  | succ count ih =>
      rcases round with ⟨visited, waiting, born, ledger, progressed⟩
      cases waiting with
      | nil =>
          rw [moves, List.append_nil]
          exact .finished before
      | cons machine waiting =>
          rw [moves, turns]
          cases turned : turn program config machine
              ⟨visited, waiting, born, ledger, progressed⟩ with
          | error aborted => exact .aborted rfl before turned
          | ok after =>
              have ended := ih (kept before turned)
              rwa [List.append_assoc] at ended

/-- Turns without a fault go on until nobody is waiting or all of them have come up. -/
theorem waiting_eq_nil_or_length_moves (count : Nat) {round after : Round}
    (turned : round.turns program config count = .ok after) :
    after.waiting = [] ∨ (round.moves program config count).length = count := by
  induction count generalizing round with
  | zero => exact .inr rfl
  | succ count ih =>
      rcases round with ⟨visited, waiting, born, ledger, progressed⟩
      cases waiting with
      | nil =>
          cases turned
          exact .inl rfl
      | cons machine waiting =>
          rw [turns] at turned
          rw [moves]
          cases first : turn program config machine
              ⟨visited, waiting, born, ledger, progressed⟩ with
          | error aborted =>
              rw [first] at turned
              cases turned
          | ok next =>
              rw [first] at turned
              exact (ih turned).imp_right (congrArg (· + 1))

end Round

/-- The turns that come up in the next round. -/
def moves (program : Program) (config : Config) (pool : Pool) : List Move :=
  (Round.start pool).moves program config pool.registered.length

variable {program : Program} {config : Config} {holds : List Move → Round → Prop} {pool : Pool}

/-- How a round can end, when `holds` is a property of the moves so far and of the round that
every turn without a fault keeps. -/
inductive SweepEnds (program : Program) (config : Config) (holds : List Move → Round → Prop)
    (pool : Pool) : Pool × Except Fault Bool → Prop
  | finished {round : Round} (kept : holds (pool.moves program config) round)
      (turned : (Round.start pool).turns program config pool.registered.length = .ok round) :
      SweepEnds program config holds pool (round.toPool.retireHalted, .ok round.progressed)
  | aborted {earlier : List Move} {machine : Machine} {round after : Round} {fault : Fault}
      (last : pool.moves program config = earlier ++ [⟨machine, round⟩])
      (before : holds earlier (round.putBack machine))
      (turned : round.turn program config machine = .error (fault, after)) :
      SweepEnds program config holds pool (after.toPool, .error fault)

/-- Where there were turns enough for all who waited, nobody is waiting at the end of a round. -/
theorem waiting_eq_nil_of_room {round : Round}
    (room : (pool.moves program config).length + round.waiting.length ≤ pool.registered.length)
    (turned : (Round.start pool).turns program config pool.registered.length = .ok round) :
    round.waiting = [] := by
  rcases Round.waiting_eq_nil_or_length_moves _ turned with nobody | all
  · exact nobody
  · rw [moves, all] at room
    exact List.eq_nil_of_length_eq_zero (by omega)

/-- A round ends in one of these ways. -/
theorem sweepEnds
    (kept : ∀ {past machine round after}, holds past (round.putBack machine) →
      round.turn program config machine = .ok after → holds (past ++ [⟨machine, round⟩]) after)
    (start : holds [] (Round.start pool)) :
    SweepEnds program config holds pool (pool.sweep program config) := by
  have ended := Round.turnsEnd kept pool.registered.length start
  rw [List.nil_append] at ended
  rw [sweep]
  cases turned : (Round.start pool).turns program config pool.registered.length with
  | ok round =>
      rw [turned] at ended
      cases ended with
      | finished kept => exact .finished kept turned
  | error aborted =>
      rw [turned] at ended
      cases ended with
      | aborted last before turned => exact .aborted last before turned

/-! ## The rounds of a run -/

/-- The pools with which the rounds of a run begin, for a run of at most `fuel` turns. -/
def rounds (program : Program) (config : Config) : Nat → Pool → List Pool
  | 0, _ => []
  | fuel + 1, pool =>
      if pool.isDone then []
      else
        pool :: match pool.sweep program config with
          | (next, .ok true) => rounds program config fuel next
          | _ => []

theorem run_succ_of_isDone {pool : Pool} (done : pool.isDone = true) (fuel : Nat) :
    pool.run program config (fuel + 1) = some (pool, .ok ()) := by
  simp [run, iterate, runTurn, done]

/-- A run that is not over plays a round and goes on when some machine has had a turn. -/
theorem run_succ_of_not_isDone {pool : Pool} (undone : pool.isDone = false) (fuel : Nat) :
    pool.run program config (fuel + 1) =
      match pool.sweep program config with
      | (next, .ok true) => next.run program config fuel
      | (next, .ok false) => some (next, .ok ())
      | (next, .error fault) => some (next, .error fault) := by
  simp only [run, iterate, runTurn, undone]
  rcases pool.sweep program config with ⟨next, outcome⟩
  cases outcome with
  | error fault => rfl
  | ok progressed => cases progressed <;> rfl

/-- What rounds keep is kept by runs. -/
theorem run_induction {holds : List Pool → Pool → Prop}
    (sweep : ∀ {past pool}, holds past pool →
      holds (past ++ [pool]) (pool.sweep program config).1)
    (past : List Pool) {fuel : Nat} {pool after : Pool} {outcome : Except Fault Unit}
    (before : holds past pool) (returned : pool.run program config fuel = some (after, outcome)) :
    holds (past ++ pool.rounds program config fuel) after := by
  induction fuel generalizing past pool with
  | zero => simp [run, iterate] at returned
  | succ fuel ih =>
      cases undone : pool.isDone with
      | true =>
          rw [run_succ_of_isDone undone, Option.some.injEq] at returned
          cases returned
          rw [rounds, if_pos undone, List.append_nil]
          exact before
      | false =>
          rw [run_succ_of_not_isDone undone] at returned
          have next := sweep before
          rw [rounds, if_neg (Bool.eq_false_iff.mp undone)]
          rcases swept : pool.sweep program config with ⟨middle, ended⟩
          rw [swept] at returned next
          cases ended with
          | error fault =>
              cases returned
              exact next
          | ok progressed =>
              cases progressed with
              | false =>
                  cases returned
                  exact next
              | true =>
                  have rest := ih _ next returned
                  rwa [List.append_assoc] at rest

end ForkTape.Pool
