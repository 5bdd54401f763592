import ForkTape.Proofs.Pool.Turn

/-!
# All machines of a pool

A round moves the machines about, and halted machines leave the registry. Where a machine stands
does not matter for what is said of all of them, so the machines are compared here as lists up to
order (`Pool.members`, `Round.members`).

A turn replaces one machine by what it has become, and a `fork` within the budget adds one more.
`Round.Effect` says so, together with what the turn does to the books.
-/

namespace ForkTape

/-- Whether the event is a fork. -/
def Event.isFork : Event → Bool
  | forked .. => true
  | _ => false

theorem Event.not_isFork_of_isEffect {event : Event} (effect : event.isEffect = true) :
    event.isFork = false := by
  cases event <;> first | rfl | contradiction

namespace Machine

variable {machine : Machine}

/-- A machine grows by moving past a `fork`. -/
theorem grows_passFork (live : machine.halted = false) : machine.Grows machine.passFork where
  id := rfl
  parent := rfl
  children := List.prefix_refl _
  output := List.prefix_refl _
  steps := Nat.le_refl _
  halted halted := by
    rw [live] at halted
    contradiction

/-- A machine grows by forking. -/
theorem grows_fork (child : Nat) (split : Input.Split) (live : machine.halted = false) :
    machine.Grows (machine.fork child split).1 where
  id := rfl
  parent := rfl
  children := by simp [fork]
  output := List.prefix_refl _
  steps := Nat.le_refl _
  halted halted := by
    rw [live] at halted
    contradiction

end Machine

namespace Pool

namespace Ledger

/-- How many forks have been carried out. -/
def forks (ledger : Ledger) : Nat := ledger.log.toList.countP Event.isFork

theorem forks_record (event : Event) (ledger : Ledger) :
    (ledger.record event).forks = ledger.forks + if event.isFork then 1 else 0 := by
  simp [forks, record, List.countP_append, List.countP_cons]

/-- What the books go on to say while `births` more machines come into being. -/
structure Continues (ledger later : Ledger) (births : Nat) : Prop where
  nextId : later.nextId = ledger.nextId + births
  forks : later.forks = ledger.forks + births
  refusals : ledger.refusals.toList <+: later.refusals.toList
  globalSteps : ledger.globalSteps ≤ later.globalSteps

theorem Continues.refl (ledger : Ledger) : ledger.Continues ledger 0 :=
  ⟨rfl, rfl, List.prefix_refl _, Nat.le_refl _⟩

theorem Continues.trans {ledger later last : Ledger} {births more : Nat}
    (first : ledger.Continues later births) (second : later.Continues last more) :
    ledger.Continues last (births + more) where
  nextId := by rw [second.nextId, first.nextId, Nat.add_assoc]
  forks := by rw [second.forks, first.forks, Nat.add_assoc]
  refusals := first.refusals.trans second.refusals
  globalSteps := Nat.le_trans first.globalSteps second.globalSteps

theorem continues_record {event : Event} (plain : event.isFork = false) (ledger : Ledger) :
    ledger.Continues (ledger.record event) 0 where
  nextId := rfl
  forks := by simp [forks_record, plain]
  refusals := List.prefix_refl _
  globalSteps := Nat.le_refl _

theorem continues_recordAny {event? : Option Event}
    (effect : ∀ event, event? = some event → event.isEffect = true) (ledger : Ledger) :
    ledger.Continues (ledger.recordAny event?) 0 := by
  cases event? with
  | none => exact .refl ledger
  | some event => exact continues_record (Event.not_isFork_of_isEffect (effect event rfl)) ledger

theorem continues_countStep (ledger : Ledger) : ledger.Continues ledger.countStep 0 :=
  ⟨rfl, rfl, List.prefix_refl _, Nat.le_succ _⟩

theorem continues_retire (machines : List Machine) (ledger : Ledger) :
    ledger.Continues (ledger.retire machines) 0 :=
  ⟨rfl, rfl, List.prefix_refl _, Nat.le_refl _⟩

theorem continues_bookFork (parent live : Nat) (ledger : Ledger) :
    ledger.Continues (ledger.bookFork parent live) 1 where
  nextId := rfl
  forks := by
    rw [bookFork, forks_record]
    rfl
  refusals := List.prefix_refl _
  globalSteps := Nat.le_refl _

theorem continues_bookRefusal (refusal : Refusal) (ledger : Ledger) :
    ledger.Continues (ledger.bookRefusal refusal) 0 where
  nextId := rfl
  forks := by
    rw [bookRefusal, forks_record]
    rfl
  refusals := by simp [bookRefusal, record]
  globalSteps := Nat.le_refl _

end Ledger

/-- Every machine there has been, in the order of leaving the registry. -/
def members (pool : Pool) : List Machine :=
  pool.ledger.retired.toList ++ pool.registered

theorem machines_perm_members (pool : Pool) : pool.machines.Perm pool.members :=
  List.mergeSort_perm _ _

/-- The results of a report are those of all machines. -/
theorem mem_results_iff {pool : Pool} {result : Machine.Result} :
    result ∈ pool.report.results ↔ ∃ machine ∈ pool.members, machine.result = result := by
  simp only [report, List.mem_map, pool.machines_perm_members.mem_iff]

theorem members_retireHalted (pool : Pool) : pool.retireHalted.members.Perm pool.members := by
  have parted := List.filter_append_perm Machine.halted pool.registered
  simp only [members, retireHalted, Ledger.retire, Array.toList_appendList, List.append_assoc]
  exact parted.append_left _

namespace Round

/-- Every machine there has been, in the middle of a round. -/
def members (round : Round) : List Machine :=
  round.ledger.retired.toList ++ (round.visited ++ (round.waiting ++ round.born))

theorem members_toPool (round : Round) : round.toPool.members.Perm round.members := by
  simp only [Pool.members, toPool, members, List.append_assoc]
  apply List.Perm.append_left
  exact (List.reverse_perm _).append ((List.reverse_perm _).append_left _)

theorem members_visit (machine : Machine) (round : Round) :
    (round.visit machine).members.Perm (machine :: round.members) :=
  List.perm_middle

theorem members_putBack (machine : Machine) (round : Round) :
    (round.putBack machine).members.Perm (machine :: round.members) := by
  simp only [members, putBack, ← List.append_assoc]
  exact List.perm_middle.append_right _

/-- The machine whose turn it is, and all others. -/
theorem members_toPool_putBack (machine : Machine) (round : Round) :
    (round.putBack machine).toPool.members.Perm (machine :: round.members) :=
  (members_toPool _).trans (members_putBack machine round)

theorem members_bear (machine : Machine) (round : Round) :
    (round.bear machine).members.Perm (machine :: round.members) := by
  simp only [members, bear, ← List.append_assoc]
  exact List.perm_middle

theorem members_retireHalted (round : Round) :
    round.retireHalted.members.Perm round.members := by
  rcases round with ⟨visited, waiting, born, ledger, progressed⟩
  have parted := List.filter_append_perm Machine.halted (visited ++ (waiting ++ born))
  simp only [members, retireHalted, Ledger.retire, Array.toList_appendList, List.append_assoc]
  simp only [List.filter_append, List.append_assoc] at parted
  exact parted.append_left _

theorem members_book {change : Ledger → Ledger} {round : Round}
    (kept : (change round.ledger).retired = round.ledger.retired) :
    (round.book change).members = round.members := by
  simp only [members, book, kept]

theorem members_visit_book {change : Ledger → Ledger} {round : Round}
    (kept : (change round.ledger).retired = round.ledger.retired) (machine : Machine) :
    ((round.book change).progress.visit machine).members.Perm (machine :: round.members) := by
  have visited := members_visit machine (round.book change).progress
  have others : (round.book change).progress.members = round.members := members_book kept
  rwa [others] at visited

theorem members_putBack_book {change : Ledger → Ledger} {round : Round}
    (kept : (change round.ledger).retired = round.ledger.retired) (machine : Machine) :
    ((round.book change).putBack machine).members.Perm (machine :: round.members) :=
  members_book kept ▸ members_putBack machine (round.book change)

/-- The machines when `parent` has been visited and `child` born. -/
theorem members_visit_bear_book {change : Ledger → Ledger} {round : Round}
    (kept : (change round.ledger).retired = round.ledger.retired) (parent child : Machine) :
    (((round.book change).bear child).visit parent).members.Perm
      (parent :: child :: round.members) := by
  have born := members_bear child (round.book change)
  rw [members_book kept] at born
  exact (members_visit _ _).trans (born.cons _)

/-! ## What a turn does -/

/-- What a turn of `machine` does to all machines and to the books of `round`, which is given
without the machine. -/
inductive Effect (config : Config) (machine : Machine) (round after : Round) : Prop
  /-- The machine has become `next`. -/
  | kept {next : Machine} (grows : machine.Grows next) (kin : next.kin = machine.kin)
      (members : after.members.Perm (next :: round.members))
      (books : round.ledger.Continues after.ledger 0)
  /-- The machine has become `next`, which has forked. -/
  | forked {next : Machine} (kin : next.kin = machine.kin)
      (grows : machine.Grows (next.fork round.ledger.nextId config.inputSplit).1)
      (members : after.members.Perm ((next.fork round.ledger.nextId config.inputSplit).1 ::
        (next.fork round.ledger.nextId config.inputSplit).2 :: round.members))
      (books : round.ledger.Continues after.ledger 1)

variable {program : Program} {config : Config} {machine : Machine} {round : Round}

/-- No id is given away twice: the next one only grows. -/
theorem Effect.nextId_le {after : Round} (effect : Effect config machine round after) :
    round.ledger.nextId ≤ after.ledger.nextId := by
  cases effect with
  | kept _ _ _ books => exact Nat.le.intro books.nextId.symm
  | forked _ _ _ books => exact Nat.le.intro books.nextId.symm

/-- Resolving a `fork` is an effect of the turn that came to it. -/
theorem Resolved.effect {after : Round} (live : machine.halted = false)
    (resolved : Resolved config machine round after) :
    Effect config machine round after := by
  cases resolved with
  | forked room =>
      exact .forked rfl (Machine.grows_fork _ _ live) (members_visit_bear_book rfl _ _)
        (Ledger.continues_bookFork _ _ _)
  | refused full =>
      exact .kept (Machine.grows_passFork live) rfl (members_visit_book rfl _)
        (Ledger.continues_bookRefusal _ _)

/-- Effects in a round whose books went on without a birth are effects in the round before. -/
theorem Effect.of_continues {start after : Round} {next : Machine}
    (grows : machine.Grows next) (kin : next.kin = machine.kin)
    (members : round.members.Perm start.members)
    (books : start.ledger.Continues round.ledger 0)
    (effect : Effect config next round after) : Effect config machine start after := by
  have same : round.ledger.nextId = start.ledger.nextId := books.nextId
  cases effect with
  | kept nextGrows nextKin nextMembers nextBooks =>
      refine .kept (grows.trans nextGrows) (nextKin.trans kin)
        (nextMembers.trans (members.cons _)) ?_
      simpa using books.trans nextBooks
  | @forked last nextKin nextGrows nextMembers nextBooks =>
      rw [same] at nextGrows nextMembers
      refine .forked (nextKin.trans kin) (grows.trans nextGrows)
        (nextMembers.trans ((members.cons _).cons _)) ?_
      simpa using books.trans nextBooks

/-- What a turn does to all machines and to the books. -/
theorem Turned.effect {result : Except (Fault × Round) Round}
    (turned : Turned program config machine round result) :
    Effect config machine round (left result) := by
  cases turned with
  | rested halted =>
      exact .kept (.refl machine) rfl (members_visit _ _) (.refl _)
  | stopped live pending reached =>
      exact .kept (.refl machine) rfl (members_putBack _ _) (.refl _)
  | @faulted next fault event? live admitted executed =>
      have executes := Machine.executes_of_exec executed
      exact .kept executes.grows executes.kin_eq
        (members_putBack_book (Ledger.retired_recordAny _ _) next)
        (Ledger.continues_recordAny (fun _ => executes.event_isEffect) _)
  | @advanced next event? live admitted executed =>
      have executes := Machine.executes_of_exec executed
      exact .kept executes.grows executes.kin_eq
        (members_visit_book (Ledger.retired_recordAny _ _) next)
        ((Ledger.continues_recordAny (fun _ => executes.event_isEffect) _).trans
          (Ledger.continues_countStep _))
  | @halted next event? live admitted executed =>
      have executes := Machine.executes_of_exec executed
      exact .kept executes.grows executes.kin_eq
        (members_visit_book (Ledger.retired_recordAny _ _) next)
        ((Ledger.continues_recordAny (fun _ => executes.event_isEffect) _).trans
          (Ledger.continues_record rfl _))
  | @atFork next event? after live admitted executed resolved =>
      have executes := Machine.executes_of_exec executed
      have nextLive : next.halted = false := by
        cases executes with
        | reachedFork nextLive found nextAdmitted => exact nextLive
      refine .of_continues executes.grows executes.kin_eq ?_ ?_ (resolved.effect nextLive)
      · apply (members_retireHalted _).trans
        rw [← members_book (Ledger.retired_recordAny event? round.ledger)]
        rfl
      · exact ((Ledger.continues_recordAny (fun _ => executes.event_isEffect) _).trans
          (Ledger.continues_countStep _)).trans (Ledger.continues_retire _ _)

end Round

end Pool

end ForkTape
