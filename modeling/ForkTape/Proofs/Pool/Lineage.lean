import ForkTape.Proofs.Pool.Members
import ForkTape.Proofs.Pool.Reachable
import Mathlib.Data.List.Nodup

/-!
# The tree of machines

Every machine but the first has a parent, and every fork makes one machine more. `Lineage` says
that the machines of a pool, which know each other by id only, form a tree: the ids are those given
away, and parents and children tell the same of each other. It is said of the places of the
machines in any order, because a round reorders the machines and halted ones leave the registry.

`Report.IsForkTree` says the same of a report, where the machines stand in the order of their ids.
-/

namespace ForkTape

open Machine (Kin)

/-- The places of `count` machines that form a tree. -/
structure Lineage (kins : List Kin) (count : Nat) : Prop where
  ids : (kins.map Kin.id).Perm (List.range count)
  parents : ∀ kin ∈ kins,
    (kin.id = 0 ∧ kin.parent = none) ∨ ∃ parent < kin.id, kin.parent = some parent
  children : ∀ kin ∈ kins, ∀ id,
    id ∈ kin.children ↔ ∃ child ∈ kins, child.id = id ∧ child.parent = some kin.id
  ascending : ∀ kin ∈ kins, kin.children.Pairwise (· < ·)

namespace Lineage

variable {kins : List Kin} {count : Nat}

/-- The order of the places does not matter. -/
theorem perm {others : List Kin} (lineage : Lineage kins count) (same : others.Perm kins) :
    Lineage others count where
  ids := (same.map Kin.id).trans lineage.ids
  parents kin kinMem := lineage.parents kin (same.mem_iff.mp kinMem)
  children kin kinMem id := by
    simp only [same.mem_iff]
    exact lineage.children kin (same.mem_iff.mp kinMem) id
  ascending kin kinMem := lineage.ascending kin (same.mem_iff.mp kinMem)

theorem id_lt (lineage : Lineage kins count) {kin : Kin} (kinMem : kin ∈ kins) :
    kin.id < count :=
  List.mem_range.mp (lineage.ids.mem_iff.mp (List.mem_map_of_mem kinMem))

theorem nodup_ids (lineage : Lineage kins count) : (kins.map Kin.id).Nodup :=
  lineage.ids.nodup_iff.mpr List.nodup_range

/-- An id belongs to one machine. -/
theorem eq_of_id_eq (lineage : Lineage kins count) {first second : Kin}
    (firstMem : first ∈ kins) (secondMem : second ∈ kins) (id_eq : first.id = second.id) :
    first = second :=
  List.inj_on_of_nodup_map lineage.nodup_ids firstMem secondMem id_eq

/-- A machine alone is a tree. -/
theorem single : Lineage [⟨0, none, []⟩] 1 where
  ids := List.Perm.refl _
  parents := by simp
  children := by simp
  ascending := by simp

theorem child_lt (lineage : Lineage kins count) {kin : Kin} (kinMem : kin ∈ kins) {id : Nat}
    (childMem : id ∈ kin.children) : id < count := by
  obtain ⟨child, childKin, rfl, _⟩ := (lineage.children kin kinMem id).mp childMem
  exact lineage.id_lt childKin

/-- The next id is nobody's parent yet. -/
theorem parent_ne_next (lineage : Lineage kins count) {kin : Kin} (kinMem : kin ∈ kins) :
    kin.parent ≠ some count := by
  intro isNext
  rcases lineage.parents kin kinMem with ⟨_, root⟩ | ⟨parent, parent_lt, found⟩
  · rw [root] at isNext
    contradiction
  · rw [found, Option.some.injEq] at isNext
    have kin_lt := lineage.id_lt kinMem
    omega

/-- A machine is a child of one machine only. -/
theorem eq_of_mem_children (lineage : Lineage kins count) {first second : Kin} {id : Nat}
    (firstMem : first ∈ kins) (secondMem : second ∈ kins) (firstChild : id ∈ first.children)
    (secondChild : id ∈ second.children) : first = second := by
  obtain ⟨child, childMem, rfl, childParent⟩ := (lineage.children first firstMem id).mp firstChild
  obtain ⟨same, sameMem, same_id, sameParent⟩ :=
    (lineage.children second secondMem child.id).mp secondChild
  obtain rfl := lineage.eq_of_id_eq sameMem childMem same_id
  rw [childParent, Option.some.injEq] at sameParent
  exact lineage.eq_of_id_eq firstMem secondMem sameParent

/-- A new child adds one link, whatever else changes at its parent. -/
theorem exists_link_fork (kin : Kin) (kins : List Kin) (children : List Nat)
    (next id parent : Nat) :
    (∃ child ∈ { kin with children := children } :: ⟨next, some kin.id, []⟩ :: kins,
        child.id = id ∧ child.parent = some parent) ↔
      (∃ child ∈ kin :: kins, child.id = id ∧ child.parent = some parent) ∨
        (id = next ∧ parent = kin.id) := by
  simp only [List.mem_cons, exists_eq_or_imp, Option.some.injEq]
  grind

/-- A child added to a machine of a tree, under the next id, keeps the tree. -/
theorem fork {kin : Kin} (lineage : Lineage (kin :: kins) count) :
    Lineage ({ kin with children := kin.children ++ [count] } ::
      ⟨count, some kin.id, []⟩ :: kins) (count + 1) := by
  have kinMem : kin ∈ kin :: kins := List.mem_cons_self
  have kin_lt : kin.id < count := lineage.id_lt kinMem
  constructor
  · rw [List.range_succ]
    apply (List.Perm.swap _ _ _).trans
    exact (List.perm_append_singleton _ _).symm.trans (lineage.ids.append_right _)
  · intro other otherMem
    rcases List.mem_cons.mp otherMem with rfl | otherMem
    · exact lineage.parents kin kinMem
    · rcases List.mem_cons.mp otherMem with rfl | otherMem
      · exact .inr ⟨kin.id, kin_lt, rfl⟩
      · exact lineage.parents other (List.mem_cons_of_mem _ otherMem)
  · intro other otherMem id
    rw [exists_link_fork]
    rcases List.mem_cons.mp otherMem with rfl | otherMem
    · rw [List.mem_append, lineage.children kin kinMem, List.mem_singleton]
      simp
    · rcases List.mem_cons.mp otherMem with rfl | otherMem
      · have childless : ¬ ∃ child ∈ kin :: kins, child.id = id ∧ child.parent = some count := by
          rintro ⟨child, childMem, _, parentEq⟩
          exact lineage.parent_ne_next childMem parentEq
        simp only [childless, Nat.ne_of_gt kin_lt, List.not_mem_nil, and_false, or_self]
      · have distinct : other.id ≠ kin.id := by
          intro id_eq
          have nodup := lineage.nodup_ids
          rw [List.map_cons, List.nodup_cons] at nodup
          exact nodup.1 (id_eq ▸ List.mem_map_of_mem otherMem)
        rw [lineage.children other (List.mem_cons_of_mem _ otherMem)]
        simp [distinct]
  · intro other otherMem
    rcases List.mem_cons.mp otherMem with rfl | otherMem
    · rw [List.pairwise_append]
      refine ⟨lineage.ascending kin kinMem, List.pairwise_singleton _ _, ?_⟩
      intro child childMem next nextMem
      rw [List.mem_singleton.mp nextMem]
      exact lineage.child_lt kinMem childMem
    · rcases List.mem_cons.mp otherMem with rfl | otherMem
      · exact List.Pairwise.nil
      · exact lineage.ascending other (List.mem_cons_of_mem _ otherMem)

end Lineage

/-! ## The tree of a report -/

/-- The place that a result gives to its machine. -/
def Machine.Result.kin (result : Machine.Result) : Kin :=
  ⟨result.id, result.parent, result.children⟩

/-- The results of `count` machines, in the order of their ids, describe a tree. -/
structure Report.IsForkTree (report : Report) (count : Nat) : Prop where
  /-- The ids are those below `count`, in order. -/
  ids : report.results.map Machine.Result.id = List.range count
  root : ∀ result ∈ report.results, result.id = 0 → result.parent = none
  /-- Every other machine is once a child of its parent, which is older, and of nobody else. -/
  parents : ∀ result ∈ report.results, result.id ≠ 0 → ∃ parent ∈ report.results,
    result.parent = some parent.id ∧ parent.id < result.id ∧
      parent.children.count result.id = 1 ∧
      ∀ other ∈ report.results, result.id ∈ other.children → other = parent
  ascending : ∀ result ∈ report.results, result.children.Pairwise (· < ·)
  /-- Nothing but the ids of other machines than the first is a child. -/
  children : ∀ result ∈ report.results, ∀ id ∈ result.children, 1 ≤ id ∧ id < count

/-- A report in the order of ids describes a tree when the places of its results form one. -/
theorem Report.isForkTree_of_lineage {report : Report} {count : Nat}
    (lineage : Lineage (report.results.map Machine.Result.kin) count)
    (ordered : (report.results.map Machine.Result.id).Pairwise (· ≤ ·)) :
    report.IsForkTree count := by
  have kinMem {result : Machine.Result} (resultMem : result ∈ report.results) :
      result.kin ∈ report.results.map Machine.Result.kin := List.mem_map_of_mem resultMem
  have idsPerm : (report.results.map Machine.Result.id).Perm (List.range count) := by
    have perm := lineage.ids
    rw [List.map_map] at perm
    exact perm
  have ids : report.results.map Machine.Result.id = List.range count :=
    idsPerm.eq_of_pairwise (fun _ _ _ _ => Nat.le_antisymm) ordered List.pairwise_le_range
  have nodup : (report.results.map Machine.Result.id).Nodup := ids ▸ List.nodup_range
  constructor
  · exact ids
  · intro result resultMem isRoot
    rcases lineage.parents result.kin (kinMem resultMem) with ⟨_, root⟩ | ⟨parent, parent_lt, _⟩
    · exact root
    · exact absurd isRoot (Nat.ne_of_gt (Nat.zero_lt_of_lt parent_lt))
  · intro result resultMem notRoot
    rcases lineage.parents result.kin (kinMem resultMem) with
      ⟨isRoot, _⟩ | ⟨parentId, parent_lt, parentEq⟩
    · exact absurd isRoot notRoot
    · have parent_lt_count : parentId < count :=
        Nat.lt_trans parent_lt (lineage.id_lt (kinMem resultMem))
      obtain ⟨parent, parentMem, rfl⟩ :=
        List.mem_map.mp (idsPerm.mem_iff.mpr (List.mem_range.mpr parent_lt_count))
      have childMem : result.id ∈ parent.children :=
        (lineage.children parent.kin (kinMem parentMem) result.id).mpr
          ⟨result.kin, kinMem resultMem, rfl, parentEq⟩
      have childrenNodup : parent.children.Nodup :=
        (lineage.ascending parent.kin (kinMem parentMem)).imp Nat.ne_of_lt
      refine ⟨parent, parentMem, parentEq, parent_lt,
        List.count_eq_one_of_mem childrenNodup childMem, ?_⟩
      intro other otherMem otherChild
      have same : other.kin = parent.kin :=
        lineage.eq_of_mem_children (kinMem otherMem) (kinMem parentMem) otherChild childMem
      exact List.inj_on_of_nodup_map nodup otherMem parentMem (congrArg Kin.id same)
  · intro result resultMem
    exact lineage.ascending result.kin (kinMem resultMem)
  · intro result resultMem id idMem
    refine ⟨?_, lineage.child_lt (kinMem resultMem) idMem⟩
    obtain ⟨child, childKinMem, rfl, childParent⟩ :=
      (lineage.children result.kin (kinMem resultMem) id).mp idMem
    rcases lineage.parents child childKinMem with ⟨_, root⟩ | ⟨parent, parent_lt, _⟩
    · rw [root] at childParent
      contradiction
    · exact Nat.zero_lt_of_lt parent_lt

/-! ## The tree of a pool -/

namespace Pool

/-- The machines form a tree, the next id is that of its next machine, and every machine but the
first comes of a fork. -/
structure Ledger.Tells (ledger : Ledger) (machines : List Machine) : Prop where
  lineage : Lineage (machines.map Machine.kin) ledger.nextId
  forks : ledger.nextId = 1 + ledger.forks

theorem Ledger.Tells.perm {ledger : Ledger} {machines others : List Machine}
    (tells : ledger.Tells machines) (same : others.Perm machines) : ledger.Tells others :=
  ⟨tells.lineage.perm (same.map _), tells.forks⟩

theorem Ledger.Tells.nodup_ids {ledger : Ledger} {machines : List Machine}
    (tells : ledger.Tells machines) : (machines.map Machine.id).Nodup := by
  have nodup := tells.lineage.nodup_ids
  rwa [List.map_map] at nodup

/-- The ids of the machines are those given away. -/
theorem Ledger.Tells.exists_id_iff {ledger : Ledger} {machines : List Machine}
    (tells : ledger.Tells machines) {id : Nat} :
    (∃ machine ∈ machines, machine.id = id) ↔ id < ledger.nextId := by
  have ids := tells.lineage.ids
  rw [List.map_map] at ids
  exact List.mem_map.symm.trans (ids.mem_iff.trans List.mem_range)

theorem Ledger.Tells.id_lt {ledger : Ledger} {machines : List Machine} {machine : Machine}
    (tells : ledger.Tells machines) (machineMem : machine ∈ machines) :
    machine.id < ledger.nextId :=
  tells.exists_id_iff.mp ⟨machine, machineMem, rfl⟩

/-- The machines of a tree other than `machine` have other ids, and nobody has the next id. -/
theorem Ledger.Tells.distinct {ledger : Ledger} {machine : Machine} {others : List Machine}
    (tells : ledger.Tells (machine :: others)) :
    (∀ other ∈ others, other.id ≠ machine.id) ∧
      ∀ other ∈ machine :: others, other.id ≠ ledger.nextId := by
  constructor
  · have nodup := tells.nodup_ids
    rw [List.map_cons, List.nodup_cons] at nodup
    intro other otherMem same
    exact nodup.1 (List.mem_map.mpr ⟨other, otherMem, same⟩)
  · intro other otherMem
    exact Nat.ne_of_lt (tells.id_lt otherMem)

/-- The first machine is a tree. -/
theorem tells_initial (config : Config) (input : Input) :
    (initial config input).ledger.Tells (initial config input).members :=
  ⟨Lineage.single, rfl⟩

/-- What a turn does keeps the tree. -/
theorem Round.Effect.tells {config : Config} {machine : Machine} {round after : Round}
    (effect : Effect config machine round after)
    (before : round.ledger.Tells (machine :: round.members)) :
    after.ledger.Tells after.members := by
  obtain ⟨lineage, forks⟩ := before
  rw [List.map_cons] at lineage
  cases effect with
  | @kept next grows kin members books =>
      refine Ledger.Tells.perm ⟨?_, ?_⟩ members
      · rw [List.map_cons, kin, books.nextId]
        exact lineage
      · rw [books.nextId, books.forks, forks, Nat.add_assoc]
  | @forked next kin grows members books =>
      refine Ledger.Tells.perm ⟨?_, ?_⟩ members
      · have parent : (next.fork round.ledger.nextId config.inputSplit).1.kin =
            { machine.kin with children := machine.kin.children ++ [round.ledger.nextId] } := by
          rw [← kin]
          simp [Machine.kin, Machine.fork]
        have child : (next.fork round.ledger.nextId config.inputSplit).2.kin =
            ⟨round.ledger.nextId, some machine.kin.id, []⟩ := by
          rw [← kin]
          rfl
        rw [List.map_cons, List.map_cons, parent, child, books.nextId]
        exact lineage.fork
      · rw [books.nextId, books.forks, forks, Nat.add_assoc]

/-- Turns and the retiring of halted machines keep the tree. -/
theorem tells_kept (program : Program) (config : Config) :
    Kept program config fun pool => pool.ledger.Tells pool.members where
  turn {machine round result} turned before := by
    have together : round.ledger.Tells (machine :: round.members) :=
      before.perm (Round.members_toPool_putBack machine round).symm
    exact (turned.effect.tells together).perm (Round.members_toPool _)
  retire {pool} before := by
    have tells := before.perm (members_retireHalted pool)
    exact ⟨tells.lineage, tells.forks⟩

theorem tells_of_reachable {program : Program} {config : Config} {input : Input} {pool : Pool}
    (reachable : Reachable program config input pool) : pool.ledger.Tells pool.members :=
  (tells_kept program config).of_reachable (tells_initial config input) reachable

/-- A machine is found in the report by its id. -/
theorem find?_report {pool : Pool} (tells : pool.ledger.Tells pool.members) {machine : Machine}
    (machineMem : machine ∈ pool.members) :
    pool.report.find? machine.id = some machine.result := by
  have resultMem : machine.result ∈ pool.report.results :=
    mem_results_iff.mpr ⟨machine, machineMem, rfl⟩
  rw [Report.find?]
  cases found : pool.report.results.find? fun result => result.id == machine.id with
  | none =>
      have absent := List.find?_eq_none.mp found machine.result resultMem
      exact absurd (beq_self_eq_true machine.id) absent
  | some result =>
      have same := List.find?_some found
      obtain ⟨other, otherMem, rfl⟩ := mem_results_iff.mp (List.mem_of_find?_eq_some found)
      have id_eq : other.id = machine.id := beq_iff_eq.mp same
      rw [List.inj_on_of_nodup_map tells.nodup_ids otherMem machineMem id_eq]

/-- What has been sorted by a number is in the order of this number. -/
theorem pairwise_mergeSort_key {α : Type} (key : α → Nat) (entries : List α) :
    (entries.mergeSort fun first second => key first ≤ key second).Pairwise
      fun first second => key first ≤ key second := by
  have sorted := @List.pairwise_mergeSort α (fun first second => decide (key first ≤ key second))
    (fun first second third => by simpa using Nat.le_trans)
    (fun first second => by simpa using Nat.le_total (key first) (key second)) entries
  exact sorted.imp of_decide_eq_true

/-- The machines of a pool are listed in the order of their ids. -/
theorem machines_ordered (pool : Pool) : (pool.machines.map Machine.id).Pairwise (· ≤ ·) := by
  rw [List.pairwise_map]
  exact pairwise_mergeSort_key Machine.id _

/-- The machines of a pool have the ids that have been given away, in order. -/
theorem machines_ids {pool : Pool} (tells : pool.ledger.Tells pool.members) :
    pool.machines.map Machine.id = List.range pool.ledger.nextId := by
  have ids := tells.lineage.ids
  rw [List.map_map] at ids
  exact ((pool.machines_perm_members.map Machine.id).trans ids).eq_of_pairwise
    (fun _ _ _ _ => Nat.le_antisymm) pool.machines_ordered List.pairwise_le_range

/-- Whatever rounds and runs have led to a pool, and whether or not they ended in a fault, its
report describes a tree of as many machines as there have been forks, and the first one. -/
theorem report_isForkTree {program : Program} {config : Config} {input : Input} {pool : Pool}
    (reachable : Reachable program config input pool) :
    pool.report.IsForkTree (1 + pool.ledger.forks) := by
  obtain ⟨lineage, forks⟩ := tells_of_reachable reachable
  rw [← forks]
  apply Report.isForkTree_of_lineage
  · have kins : pool.report.results.map Machine.Result.kin = pool.machines.map Machine.kin := by
      rw [report, List.map_map]
      rfl
    rw [kins]
    exact lineage.perm (pool.machines_perm_members.map _)
  · have ids : pool.report.results.map Machine.Result.id = pool.machines.map Machine.id := by
      rw [report, List.map_map]
      rfl
    rw [ids]
    exact pool.machines_ordered

/-- The program of two forks, one after the other. -/
def forkTwice : Program where
  instructions := #[.fork, .fork]
  offsets := #[0, 4]
  pairing := ⟨#[none, none]⟩
  paired := rfl

/-- With room for three machines, two of the three forks that two rounds come to are carried
out. -/
theorem forkTwice_isForkTree :
    ∃ pool, Reachable forkTwice { maxLive := 3 } ⟨[]⟩ pool ∧ pool.report.IsForkTree 3 :=
  ⟨_, .sweep (.sweep .initial), report_isForkTree (.sweep (.sweep .initial))⟩

end Pool

end ForkTape
