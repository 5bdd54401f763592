import ForkTape.Proofs.Pool.Moves

/-!
# Reachable pools

A pool is reachable when rounds and runs, in any order and whether or not they ended in a fault,
have led to it from the pool of the first machine. A property of pools that every turn keeps, and
that does not mind halted machines being retired, is kept by rounds and by runs, and so it holds
of every reachable pool (`Kept.of_reachable`).

`Leads` relates a pool to those to which rounds and runs lead from it. A run is nothing but rounds,
so what holds of later pools needs to be shown for rounds only (`Leads.induction`).
-/

namespace ForkTape.Pool

variable {program : Program} {config : Config}

/-- The pools to which rounds and runs lead. -/
inductive Reachable (program : Program) (config : Config) (input : Input) : Pool → Prop
  | initial : Reachable program config input (initial config input)
  | sweep {pool : Pool} (before : Reachable program config input pool) :
      Reachable program config input (pool.sweep program config).1
  | run {pool after : Pool} {fuel : Nat} {outcome : Except Fault Unit}
      (before : Reachable program config input pool)
      (returned : pool.run program config fuel = some (after, outcome)) :
      Reachable program config input after

/-- The pools to which rounds and runs lead from `pool`. -/
inductive Leads (program : Program) (config : Config) (pool : Pool) : Pool → Prop
  | refl : Leads program config pool pool
  | sweep {later : Pool} (before : Leads program config pool later) :
      Leads program config pool (later.sweep program config).1
  | run {later after : Pool} {fuel : Nat} {outcome : Except Fault Unit}
      (before : Leads program config pool later)
      (returned : later.run program config fuel = some (after, outcome)) :
      Leads program config pool after

/-- What rounds keep holds of all later pools. -/
theorem Leads.induction {holds : Pool → Prop} {pool later : Pool} (start : holds pool)
    (sweep : ∀ {pool}, holds pool → holds (pool.sweep program config).1)
    (leads : Leads program config pool later) : holds later := by
  induction leads with
  | refl => exact start
  | sweep _ before => exact sweep before
  | run _ returned before =>
      exact @run_induction program config (fun _ => holds) sweep [] _ _ _ _ before returned

theorem Leads.trans {pool middle later : Pool} (first : Leads program config pool middle)
    (second : Leads program config middle later) : Leads program config pool later :=
  second.induction first .sweep

/-- The reachable pools are those to which rounds and runs lead from the pool of the first
machine. -/
theorem Reachable.leads_initial {input : Input} {pool : Pool}
    (reachable : Reachable program config input pool) :
    Leads program config (Pool.initial config input) pool := by
  induction reachable with
  | initial => exact .refl
  | sweep _ before => exact .sweep before
  | run _ returned before => exact .run before returned

/-- What comes after a reachable pool is reachable. -/
theorem Reachable.leads {input : Input} {pool later : Pool}
    (reachable : Reachable program config input pool) (leads : Leads program config pool later) :
    Reachable program config input later :=
  leads.induction reachable .sweep

/-- A property of pools that turns and the retiring of halted machines keep. -/
structure Kept (program : Program) (config : Config) (holds : Pool → Prop) : Prop where
  turn {machine : Machine} {round : Round} {result : Except (Fault × Round) Round}
    (turned : Round.Turned program config machine round result)
    (before : holds (round.putBack machine).toPool) : holds (Round.left result).toPool
  retire {pool : Pool} (before : holds pool) : holds pool.retireHalted

namespace Kept

variable {holds : Pool → Prop}

theorem turns (kept : Kept program config holds) (count : Nat) {round : Round}
    (before : holds round.toPool) :
    holds (Round.left (round.turns program config count)).toPool := by
  have ended : Round.TurnsEnd program config (fun _ round => holds round.toPool)
      ([] ++ round.moves program config count) (round.turns program config count) := by
    apply Round.turnsEnd _ _ before
    intro past machine round after before turned
    exact kept.turn (turned ▸ Round.turned program config machine round) before
  revert ended
  generalize round.turns program config count = result
  intro ended
  cases ended with
  | finished after => exact after
  | aborted last before turned =>
      exact kept.turn (turned ▸ Round.turned program config _ _) before

/-- A round keeps the property, also when it ends in a fault. -/
theorem sweep (kept : Kept program config holds) {pool : Pool} (before : holds pool) :
    holds (pool.sweep program config).1 := by
  have start : holds (Round.start pool).toPool := by
    simpa [Round.start, Round.toPool] using before
  have after := kept.turns pool.registered.length start
  simp only [Pool.sweep]
  cases swept : (Round.start pool).turns program config pool.registered.length with
  | error aborted =>
      rw [swept] at after
      exact after
  | ok round =>
      rw [swept] at after
      exact kept.retire after

/-- A run keeps the property, also when it ends in a fault. -/
theorem run (kept : Kept program config holds) {pool after : Pool} {fuel : Nat}
    {outcome : Except Fault Unit} (before : holds pool)
    (returned : pool.run program config fuel = some (after, outcome)) : holds after :=
  @run_induction program config (fun _ => holds) (fun before => kept.sweep before) [] _ _ _ _
    before returned

/-- What holds of the pool of the first machine and is kept holds of every reachable pool. -/
theorem of_reachable {input : Input} (kept : Kept program config holds)
    (start : holds (initial config input)) {pool : Pool}
    (reachable : Reachable program config input pool) : holds pool := by
  induction reachable with
  | initial => exact start
  | sweep _ before => exact kept.sweep before
  | run _ returned before => exact kept.run before returned

/-- What holds of a pool and is kept holds of all later pools. -/
theorem leads (kept : Kept program config holds) {pool later : Pool} (before : holds pool)
    (leads : Leads program config pool later) : holds later :=
  leads.induction before kept.sweep

end Kept

end ForkTape.Pool
