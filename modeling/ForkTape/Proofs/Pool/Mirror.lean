import ForkTape.Pool.Round
import ForkTape.Proofs.Machine.Mirror
import ForkTape.Proofs.Pool.Turn
import Mathlib.Data.List.Forall2

/-!
# Pools that mirror each other

Where machines mirror each other (`Machine.Mirrors`), so do pools of them: from pools of related
machines whose books agree but for the log, turns, rounds and runs lead to pools of related
machines, and end alike (`Mirrors.run`). The machines keep their places, since what decides about
these, who has halted and how many there are, can be seen from outside.

A fault that parts two machines parts the pools, and nothing is said any more.
-/

namespace ForkTape.Pool

open Machine (Mirrors)

/-- The configuration with another configuration of the machines. -/
def Config.withMachine (machine : Machine.Config) (config : Config) : Config :=
  { config with machine := machine }

section Relations

variable (alike : Machine → Machine → Prop)

/-- Two books agree but for the log, and hold machines that are related. -/
structure Ledger.Mirrored (ledger mirror : Ledger) : Prop where
  retired : List.Forall₂ alike ledger.retired.toList mirror.retired.toList
  refusals : ledger.refusals = mirror.refusals
  nextId : ledger.nextId = mirror.nextId
  globalSteps : ledger.globalSteps = mirror.globalSteps

/-- Two rounds have come equally far with machines that are related. -/
structure Round.Mirrored (round mirror : Round) : Prop where
  visited : List.Forall₂ alike round.visited mirror.visited
  waiting : List.Forall₂ alike round.waiting mirror.waiting
  born : List.Forall₂ alike round.born mirror.born
  ledger : round.ledger.Mirrored alike mirror.ledger
  progressed : round.progressed = mirror.progressed

/-- Two pools hold machines that are related. -/
structure Mirrored (pool mirror : Pool) : Prop where
  registered : List.Forall₂ alike pool.registered mirror.registered
  ledger : pool.ledger.Mirrored alike mirror.ledger

/-- Two turns have ended alike, or the first in a fault that parts the machines. -/
inductive Round.TurnedAlike (parts : Fault → Prop) :
    Except (Fault × Round) Round → Except (Fault × Round) Round → Prop
  | finished {round mirror : Round} (mirrored : round.Mirrored alike mirror) :
      TurnedAlike parts (.ok round) (.ok mirror)
  | faulted {fault : Fault} {round mirror : Round} (mirrored : round.Mirrored alike mirror) :
      TurnedAlike parts (.error (fault, round)) (.error (fault, mirror))
  | parted {fault : Fault} {round : Round} {result : Except (Fault × Round) Round}
      (parted : parts fault) : TurnedAlike parts (.error (fault, round)) result

/-- Two rounds or runs have ended alike, or the first in a fault that parts the machines. -/
inductive EndedAlike (parts : Fault → Prop) {α : Type} :
    Pool × Except Fault α → Pool × Except Fault α → Prop
  | ended {pool mirror : Pool} {outcome : Except Fault α} (mirrored : pool.Mirrored alike mirror) :
      EndedAlike parts (pool, outcome) (mirror, outcome)
  | parted {pool : Pool} {fault : Fault} {ending : Pool × Except Fault α} (parted : parts fault) :
      EndedAlike parts (pool, .error fault) ending

end Relations

variable {program : Program} {config : Config} {other : Machine.Config}
  {alike : Machine → Machine → Prop} {parts : Fault → Prop}

/-- Pools that hold related machines hold machines that are related more widely. -/
theorem Mirrored.imp {wider : Machine → Machine → Prop} {pool mirror : Pool}
    (mirrored : pool.Mirrored alike mirror)
    (widens : ∀ ⦃machine other⦄, alike machine other → wider machine other) :
    pool.Mirrored wider mirror :=
  ⟨mirrored.registered.imp widens, mirrored.ledger.retired.imp widens, mirrored.ledger.refusals,
    mirrored.ledger.nextId, mirrored.ledger.globalSteps⟩

namespace Ledger.Mirrored

variable {ledger mirror : Ledger}

theorem record (mirrored : ledger.Mirrored alike mirror) (event mirrorEvent : Event) :
    (ledger.record event).Mirrored alike (mirror.record mirrorEvent) :=
  ⟨mirrored.retired, mirrored.refusals, mirrored.nextId, mirrored.globalSteps⟩

theorem recordAny (mirrored : ledger.Mirrored alike mirror) (event? mirrorEvent? : Option Event) :
    (ledger.recordAny event?).Mirrored alike (mirror.recordAny mirrorEvent?) := by
  cases event? <;> cases mirrorEvent? <;>
    exact ⟨mirrored.retired, mirrored.refusals, mirrored.nextId, mirrored.globalSteps⟩

theorem countStep (mirrored : ledger.Mirrored alike mirror) :
    ledger.countStep.Mirrored alike mirror.countStep :=
  ⟨mirrored.retired, mirrored.refusals, mirrored.nextId, congrArg (· + 1) mirrored.globalSteps⟩

theorem retire {machines mirrors : List Machine} (mirrored : ledger.Mirrored alike mirror)
    (related : List.Forall₂ alike machines mirrors) :
    (ledger.retire machines).Mirrored alike (mirror.retire mirrors) := by
  refine ⟨?_, mirrored.refusals, mirrored.nextId, mirrored.globalSteps⟩
  simp only [Ledger.retire, Array.toList_appendList]
  exact List.rel_append mirrored.retired related

theorem bookFork (mirrored : ledger.Mirrored alike mirror) (parent live : Nat) :
    (ledger.bookFork parent live).Mirrored alike (mirror.bookFork parent live) :=
  ⟨mirrored.retired, mirrored.refusals, congrArg (· + 1) mirrored.nextId, mirrored.globalSteps⟩

theorem bookRefusal (mirrored : ledger.Mirrored alike mirror) (refusal : Refusal) :
    (ledger.bookRefusal refusal).Mirrored alike (mirror.bookRefusal refusal) :=
  ⟨mirrored.retired, congrArg (Array.push · refusal) mirrored.refusals, mirrored.nextId,
    mirrored.globalSteps⟩

end Ledger.Mirrored

namespace Round.Mirrored

variable {round mirror : Round}

theorem visit {machine next : Machine} (mirrored : round.Mirrored alike mirror)
    (related : alike machine next) : (round.visit machine).Mirrored alike (mirror.visit next) :=
  ⟨.cons related mirrored.visited, mirrored.waiting, mirrored.born, mirrored.ledger,
    mirrored.progressed⟩

theorem putBack {machine next : Machine} (mirrored : round.Mirrored alike mirror)
    (related : alike machine next) : (round.putBack machine).Mirrored alike (mirror.putBack next) :=
  ⟨mirrored.visited, .cons related mirrored.waiting, mirrored.born, mirrored.ledger,
    mirrored.progressed⟩

theorem bear {machine next : Machine} (mirrored : round.Mirrored alike mirror)
    (related : alike machine next) : (round.bear machine).Mirrored alike (mirror.bear next) :=
  ⟨mirrored.visited, mirrored.waiting, .cons related mirrored.born, mirrored.ledger,
    mirrored.progressed⟩

theorem book {ledger mirrorLedger : Ledger} (mirrored : round.Mirrored alike mirror)
    (booked : ledger.Mirrored alike mirrorLedger) :
    Mirrored alike { round with ledger := ledger } { mirror with ledger := mirrorLedger } :=
  ⟨mirrored.visited, mirrored.waiting, mirrored.born, booked, mirrored.progressed⟩

theorem progress (mirrored : round.Mirrored alike mirror) :
    round.progress.Mirrored alike mirror.progress :=
  ⟨mirrored.visited, mirrored.waiting, mirrored.born, mirrored.ledger, rfl⟩

theorem others (mirrored : round.Mirrored alike mirror) : round.others = mirror.others := by
  simp only [Round.others, mirrored.visited.length_eq, mirrored.waiting.length_eq,
    mirrored.born.length_eq]

/-- The pools as they stand in the middle of the rounds. -/
theorem toPool (mirrored : round.Mirrored alike mirror) :
    round.toPool.Mirrored alike mirror.toPool :=
  ⟨List.rel_append (List.rel_append (List.rel_reverse mirrored.visited) mirrored.waiting)
    (List.rel_reverse mirrored.born), mirrored.ledger⟩

end Round.Mirrored

section Mirrors

variable (mirrors : Mirrors program config.inputSplit config.machine other alike parts)

include mirrors

/-- Related machines are reported alike. -/
theorem map_result_eq {machines mirror : List Machine}
    (related : List.Forall₂ alike machines mirror) :
    machines.map Machine.result = mirror.map Machine.result := by
  induction related with
  | nil => rfl
  | cons related _ ih => rw [List.map_cons, List.map_cons, mirrors.result related, ih]

/-- Machines that are related have halted alike, so the same places hold those that have. -/
theorem filter_mirrored (keep : Bool → Bool) {machines mirror : List Machine}
    (related : List.Forall₂ alike machines mirror) :
    List.Forall₂ alike (machines.filter fun machine => keep machine.halted)
      (mirror.filter fun machine => keep machine.halted) := by
  apply List.rel_filter _ related
  intro machine mirror related
  simp only [mirrors.halted related]

namespace Round

variable {round mirror : Round}

theorem Mirrored.retireHalted (mirrored : round.Mirrored alike mirror) :
    round.retireHalted.Mirrored alike mirror.retireHalted := by
  have gone {machines mirror : List Machine} (related : List.Forall₂ alike machines mirror) :=
    filter_mirrored mirrors id related
  have live {machines mirror : List Machine} (related : List.Forall₂ alike machines mirror) :=
    filter_mirrored mirrors not related
  exact ⟨live mirrored.visited, live mirrored.waiting, live mirrored.born,
    mirrored.ledger.retire (List.rel_append
      (List.rel_append (gone mirrored.visited) (gone mirrored.waiting)) (gone mirrored.born)),
    mirrored.progressed⟩

/-- A `fork` is resolved alike. -/
theorem Resolved.mirrored {machine next : Machine} {after mirrorAfter : Round}
    (related : alike machine next) (mirrored : round.Mirrored alike mirror)
    (resolved : Resolved config machine round after)
    (mirrorResolved : Resolved (config.withMachine other) next mirror mirrorAfter) :
    after.Mirrored alike mirrorAfter := by
  have others := mirrored.others
  cases resolved with
  | forked room =>
      cases mirrorResolved with
      | forked _ =>
          have forked := mirrors.fork related round.ledger.nextId
          rw [← mirrored.ledger.nextId, ← others, ← mirrors.id related]
          exact ((mirrored.book (mirrored.ledger.bookFork _ _)).bear forked.2).visit forked.1
      | refused full => exact absurd room (Nat.not_lt.mpr (others ▸ full))
  | refused full =>
      cases mirrorResolved with
      | forked room => exact absurd room (Nat.not_lt.mpr (others ▸ full))
      | refused _ =>
          rw [← others, ← mirrors.id related, ← mirrors.ip related]
          exact (mirrored.book (mirrored.ledger.bookRefusal _)).visit (mirrors.passFork related)

/-- Turns are mirrored. -/
theorem turn_mirrored {machine next : Machine} (related : alike machine next)
    (mirrored : round.Mirrored alike mirror) :
    TurnedAlike alike parts (turn program config machine round)
      (turn program (config.withMachine other) next mirror) := by
  have halted := mirrors.halted related
  have ip := mirrors.ip related
  have globalSteps := mirrored.ledger.globalSteps
  have maxGlobalSteps : (config.withMachine other).maxGlobalSteps = config.maxGlobalSteps := rfl
  simp only [turn, ← halted, ← ip, ← globalSteps, maxGlobalSteps]
  split
  · exact .finished (mirrored.visit related)
  split
  · exact .faulted (mirrored.putBack related)
  rcases executed : machine.exec program config.machine with ⟨heir, outcome, event?⟩
  rcases mirrorExecuted : next.exec program other with ⟨mirrorHeir, mirrorOutcome, mirrorEvent?⟩
  have executes := mirrors.exec related
  simp only [executed, mirrorExecuted] at executes
  have configured : (config.withMachine other).machine = other := rfl
  simp only [configured, mirrorExecuted]
  rcases executes with ⟨fault, rfl, parted⟩ | ⟨rfl, heirs⟩
  · exact .parted parted
  have booked := mirrored.ledger.recordAny event? mirrorEvent?
  cases mirrorOutcome with
  | error fault => exact .faulted ((mirrored.book booked).putBack heirs)
  | ok progress =>
      cases progress with
      | advanced => exact .finished ((mirrored.book booked.countStep).progress.visit heirs)
      | halted => exact .finished ((mirrored.book (booked.record _ _)).progress.visit heirs)
      | atFork =>
          have counted := (mirrored.book booked.countStep).progress
          exact .finished (Resolved.mirrored mirrors heirs (counted.retireHalted mirrors)
            (resolved ..) (resolved ..))

/-- The turns of a round are mirrored. -/
theorem turns_mirrored (count : Nat) {round mirror : Round}
    (mirrored : round.Mirrored alike mirror) :
    TurnedAlike alike parts (turns program config count round)
      (turns program (config.withMachine other) count mirror) := by
  induction count generalizing round mirror with
  | zero => exact .finished mirrored
  | succ count ih =>
      rcases round with ⟨visited, waiting, born, ledger, progressed⟩
      rcases mirror with ⟨mirrorVisited, mirrorWaiting, mirrorBorn, mirrorLedger, mirrorProgressed⟩
      have waitingRelated := mirrored.waiting
      cases waitingRelated with
      | nil => exact .finished mirrored
      | @cons machine next waiting mirrorWaiting related others =>
          have turned := @turn_mirrored program config other alike parts mirrors
            ⟨visited, waiting, born, ledger, progressed⟩
            ⟨mirrorVisited, mirrorWaiting, mirrorBorn, mirrorLedger, mirrorProgressed⟩ machine next
            related
            ⟨mirrored.visited, others, mirrored.born, mirrored.ledger, mirrored.progressed⟩
          simp only [turns]
          generalize turn program config machine _ = result at turned ⊢
          generalize turn program (config.withMachine other) next _ = mirrorResult at turned ⊢
          cases turned with
          | finished mirrored => exact ih mirrored
          | faulted mirrored => exact .faulted mirrored
          | parted parted => exact .parted parted

end Round

namespace Mirrored

variable {pool mirror : Pool}

theorem retireHalted (mirrored : pool.Mirrored alike mirror) :
    pool.retireHalted.Mirrored alike mirror.retireHalted :=
  ⟨filter_mirrored mirrors not mirrored.registered,
    mirrored.ledger.retire (filter_mirrored mirrors id mirrored.registered)⟩

theorem isDone_eq (mirrored : pool.Mirrored alike mirror) : pool.isDone = mirror.isDone := by
  have reported (pool : Pool) :
      pool.isDone = (pool.registered.map Machine.result).all Machine.Result.halted := by
    rw [List.all_map]
    rfl
  rw [reported, reported, map_result_eq mirrors mirrored.registered]

/-- Rounds are mirrored. -/
theorem sweep (mirrored : pool.Mirrored alike mirror) :
    EndedAlike alike parts (pool.sweep program config)
      (mirror.sweep program (config.withMachine other)) := by
  have start : (Round.start pool).Mirrored alike (Round.start mirror) :=
    ⟨.nil, mirrored.registered, .nil, mirrored.ledger, rfl⟩
  have turned := Round.turns_mirrored mirrors pool.registered.length start
  rw [Pool.sweep, Pool.sweep, ← mirrored.registered.length_eq]
  generalize Round.turns program config _ _ = result at turned ⊢
  generalize Round.turns program (config.withMachine other) _ _ = mirrorResult at turned ⊢
  cases turned with
  | finished mirrored =>
      simp only [mirrored.progressed]
      exact .ended (mirrored.toPool.retireHalted mirrors)
  | faulted mirrored => exact .ended mirrored.toPool
  | parted parted => exact .parted parted

/-- The turns of runs are mirrored. -/
theorem runTurn (pool mirror : Pool) (mirrored : pool.Mirrored alike mirror) :
    TurnsAlike (Pool.Mirrored alike)
      (fun ending mirrorEnding => ending.1.Mirrored alike mirrorEnding.1 ∧
        mirrorEnding.2 = ending.2)
      (fun ending => ∃ fault, ending.2 = .error fault ∧ parts fault)
      (pool.runTurn program config) (mirror.runTurn program (config.withMachine other)) := by
  rw [Pool.runTurn, Pool.runTurn, ← mirrored.isDone_eq mirrors]
  split
  · exact .answered ⟨mirrored, rfl⟩
  have swept := mirrored.sweep mirrors
  generalize pool.sweep program config = ending at swept ⊢
  generalize mirror.sweep program (config.withMachine other) = mirrorEnding at swept ⊢
  cases swept with
  | @ended _ _ outcome mirrored =>
      cases outcome with
      | error fault => exact .answered ⟨mirrored, rfl⟩
      | ok progressed =>
          cases progressed with
          | true => exact .continued mirrored
          | false => exact .answered ⟨mirrored, rfl⟩
  | parted parted => exact .parted ⟨_, rfl, parted⟩

/-- A run is mirrored, unless it ends in a fault that parts the machines. -/
theorem run (mirrored : pool.Mirrored alike mirror) {fuel : Nat} {after : Pool}
    {outcome : Except Fault Unit}
    (returned : pool.run program config fuel = some (after, outcome)) :
    (∃ fault, outcome = .error fault ∧ parts fault) ∨
      ∃ mirrorAfter, mirror.run program (config.withMachine other) fuel =
        some (mirrorAfter, outcome) ∧ after.Mirrored alike mirrorAfter := by
  rcases iterate_alike (runTurn mirrors) mirrored returned with
    parted | ⟨⟨mirrorAfter, mirrorOutcome⟩, found, related, rfl⟩
  · exact .inl parted
  · exact .inr ⟨mirrorAfter, found, related⟩

/-- Pools of related machines have the same report. -/
theorem report_eq (mirrored : pool.Mirrored alike mirror) : pool.report = mirror.report := by
  have sorted (pool : Pool) : pool.machines.map Machine.result =
      ((pool.ledger.retired.toList ++ pool.registered).map Machine.result).mergeSort
        fun first second => first.id ≤ second.id := by
    rw [machines, List.map_mergeSort]
    intro first _ second _
    rfl
  rw [report, report, sorted, sorted,
    map_result_eq mirrors (List.rel_append mirrored.ledger.retired mirrored.registered),
    mirrored.ledger.refusals, mirrored.ledger.globalSteps]

end Mirrored

end Mirrors

end ForkTape.Pool
