import ForkTape.Proofs.Pool.Lineage

/-!
# The order of turns

The registry lists the machines by ascending id, and turns come up in the order of the registry. A
machine keeps its place through its turn, one that is forked off comes behind all others, and when
halted machines are retired the others close up (`Round.Turned.ids_sublist`). So the order stays
whatever happens in a round (`ordered_kept`).
-/

namespace ForkTape.Pool

/-- The ids of the registered machines, in the order of the registry. -/
def ids (pool : Pool) : List Nat := pool.registered.map Machine.id

variable {program : Program} {config : Config}

namespace Round

variable {machine : Machine} {round : Round}

/-- A machine has the same place when it has had its turn. -/
theorem ids_visit {next : Machine} (id_eq : next.id = machine.id) (round : Round) :
    (round.visit next).toPool.ids = (round.putBack machine).toPool.ids := by
  simp [Pool.ids, toPool, visit, putBack, id_eq]

theorem ids_bear (machine : Machine) (round : Round) :
    (round.bear machine).toPool.ids = round.toPool.ids ++ [machine.id] := by
  simp [Pool.ids, toPool, bear]

/-- The machine that is put back after a turn has the same place. -/
theorem ids_putBack {next : Machine} (id_eq : next.id = machine.id) (round : Round) :
    (round.putBack next).toPool.ids = (round.putBack machine).toPool.ids := by
  simp [Pool.ids, toPool, putBack, id_eq]

/-- Halted machines that are retired leave the order of the others. -/
theorem ids_retireHalted (round : Round) (machine : Machine) :
    (round.retireHalted.putBack machine).toPool.ids.Sublist
      (round.putBack machine).toPool.ids := by
  apply List.Sublist.map
  apply List.Sublist.append
  · apply List.Sublist.append
    · exact List.filter_sublist.reverse
    · exact List.filter_sublist.cons_cons _
  · exact List.filter_sublist.reverse

/-- A `fork` adds at most the next id to those of the registry, behind all others. -/
theorem Resolved.ids_sublist {after : Round} (resolved : Resolved config machine round after) :
    after.toPool.ids.Sublist ((round.putBack machine).toPool.ids ++ [round.ledger.nextId]) := by
  cases resolved with
  | forked room =>
      have parent : (machine.fork round.ledger.nextId config.inputSplit).1.id = machine.id := rfl
      rw [ids_visit parent]
      change (Round.bear _ (round.putBack machine)).toPool.ids.Sublist _
      rw [ids_bear]
      exact List.Sublist.refl _
  | refused full =>
      have parent : machine.passFork.id = machine.id := rfl
      rw [ids_visit parent]
      exact List.sublist_append_left _ _

/-- A turn adds at most the next id to those of the registry, behind all others. -/
theorem Turned.ids_sublist {result : Except (Fault × Round) Round}
    (turned : Turned program config machine round result) :
    (left result).toPool.ids.Sublist
      ((round.putBack machine).toPool.ids ++ [round.ledger.nextId]) := by
  have same {ids : List Nat} (same : ids = (round.putBack machine).toPool.ids) :
      ids.Sublist ((round.putBack machine).toPool.ids ++ [round.ledger.nextId]) :=
    same ▸ List.sublist_append_left _ _
  cases turned with
  | rested halted => exact same (ids_visit rfl round)
  | stopped live pending reached => exact same rfl
  | faulted live admitted executed =>
      exact same (ids_putBack (Machine.executes_of_exec executed).grows.id round)
  | advanced live admitted executed =>
      exact same (ids_visit (Machine.executes_of_exec executed).grows.id _)
  | halted live admitted executed =>
      exact same (ids_visit (Machine.executes_of_exec executed).grows.id _)
  | @atFork next event? after live admitted executed resolved =>
      have id_eq : next.id = machine.id := (Machine.executes_of_exec executed).grows.id
      have nextId : (round.ledger.recordAny event?).nextId = round.ledger.nextId := by
        cases event? <;> rfl
      apply resolved.ids_sublist.trans
      rw [ids_putBack id_eq]
      exact (ids_retireHalted _ machine).append (nextId ▸ List.Sublist.refl _)

end Round

/-- The machines of a pool form a tree, and the registry lists them in the order of their ids. -/
structure Ordered (pool : Pool) : Prop where
  tells : pool.ledger.Tells pool.members
  ascending : pool.ids.Pairwise (· < ·)

theorem ordered_initial (config : Config) (input : Input) : (initial config input).Ordered where
  tells := tells_initial config input
  ascending := List.pairwise_singleton _ _

/-- Turns and the retiring of halted machines keep the order. -/
theorem ordered_kept (program : Program) (config : Config) :
    Kept program config Ordered where
  turn {machine round result} turned before := by
    refine ⟨(tells_kept program config).turn turned before.tells, ?_⟩
    apply List.Pairwise.sublist turned.ids_sublist
    rw [List.pairwise_append]
    refine ⟨before.ascending, List.pairwise_singleton _ _, ?_⟩
    intro id idMem next nextMem
    obtain rfl := List.mem_singleton.mp nextMem
    obtain ⟨other, otherMem, rfl⟩ := List.mem_map.mp idMem
    exact before.tells.id_lt (List.mem_append_right _ otherMem)
  retire {pool} before := by
    refine ⟨(tells_kept program config).retire before.tells, ?_⟩
    exact before.ascending.sublist (List.filter_sublist.map _)

end ForkTape.Pool
