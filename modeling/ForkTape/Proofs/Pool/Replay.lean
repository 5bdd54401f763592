import ForkTape.Proofs.Pool.Lineage

/-!
# Replaying the log

The log of a run tells the report over again: what every machine has written, who has forked off
whom, which machines have halted and after how many instructions, and which `fork`s were refused
(`Report.Replays`). It does so however the run has ended, since an event is recorded in the turn
that makes it true.

What the log tells of a machine is its `Tale`. A turn adds at most one event, and `Telling` lists
the events with what they make of the tales. So the log and the tales are followed event by event
(`Retold.tell`), and the report is read off the tales.
-/

namespace ForkTape

namespace Event

/-- The machines that the event concerns. -/
def machines : Event → List Nat
  | wrote machine _ | tapeGrew machine _ | tapeClamped machine _ _ | forkIgnored machine _
  | halted machine _ | forkRefused machine _ _ => [machine]
  | forked parent child _ => [parent, child]

/-- The byte that the machine `id` has written. -/
def byteOf? (id : Nat) : Event → Option UInt8
  | wrote machine byte => if machine = id then some byte else none
  | _ => none

/-- The number of instructions after which the machine `id` has halted. -/
def stepsOf? (id : Nat) : Event → Option Nat
  | halted machine steps => if machine = id then some steps else none
  | _ => none

/-- The machine that was forked off. -/
def child? : Event → Option Nat
  | forked _ child _ => some child
  | _ => none

/-- Whether a `fork` was refused. -/
def isRefusal : Event → Bool
  | forkRefused .. => true
  | _ => false

variable {id : Nat} {event : Event}

theorem byteOf?_eq_none (unconcerned : id ∉ event.machines) : event.byteOf? id = none := by
  cases event <;> simp_all [machines, byteOf?, eq_comm]

theorem stepsOf?_eq_none (unconcerned : id ∉ event.machines) : event.stepsOf? id = none := by
  cases event <;> simp_all [machines, stepsOf?, eq_comm]

end Event

/-- The event of a refused `fork`. -/
def Refusal.event (refusal : Refusal) : Event :=
  .forkRefused refusal.machine refusal.live refusal.budget

/-- The log tells the report over again. -/
structure Report.Replays (report : Report) (budget : Nat) (log : List Event) : Prop where
  concerned : ∀ event ∈ log, ∀ id ∈ event.machines, ∃ result ∈ report.results, result.id = id
  output : ∀ result ∈ report.results, log.filterMap (Event.byteOf? result.id) = result.output
  /-- The machines but the first are forked off in the order of their ids. -/
  children : log.filterMap Event.child? = List.range' 1 (report.results.length - 1)
  forked : ∀ {parent child live : Nat}, .forked parent child live ∈ log →
    live ≤ budget ∧ ∀ result ∈ report.results, result.id = child → result.parent = some parent
  halted : ∀ result ∈ report.results,
    log.filterMap (Event.stepsOf? result.id) = if result.halted then [result.steps] else []
  /-- No event concerns a machine that has halted. -/
  silent : log.Pairwise fun earlier later => ∀ id ∈ later.machines, earlier.stepsOf? id = none
  refused : (log.filter Event.isRefusal).map Event.message = report.refusals.map fun refusal =>
    (Fault.forkRefused refusal.machine refusal.live refusal.budget).message

/-! ## Tales -/

/-- What the log tells of a machine. -/
structure Tale where
  id : Nat
  parent : Option Nat
  output : List UInt8
  /-- The number of instructions it has executed, if it has halted. -/
  steps? : Option Nat

/-- What the log tells of the machine. -/
def Machine.tale (machine : Machine) : Tale where
  id := machine.id
  parent := machine.parent
  output := machine.output.toList
  steps? := if machine.halted then some machine.steps else none

/-- The events that a machine that has not halted can cause, each with what its tale becomes and
with the tale of the machine that is forked off, which gets the id `next`. -/
inductive Telling (budget next : Nat) (tale : Tale) : Event → Tale → Option Tale → Prop
  | wrote (byte : UInt8) :
      Telling budget next tale (.wrote tale.id byte)
        { tale with output := tale.output ++ [byte] } none
  | grew (size : Nat) : Telling budget next tale (.tapeGrew tale.id size) tale none
  | clamped (ip last : Nat) : Telling budget next tale (.tapeClamped tale.id ip last) tale none
  | halted (steps : Nat) :
      Telling budget next tale (.halted tale.id steps) { tale with steps? := some steps } none
  | refused (live : Nat) : Telling budget next tale (.forkRefused tale.id live budget) tale none
  | forked {live : Nat} (within : live ≤ budget) :
      Telling budget next tale (.forked tale.id next live) tale
        (some ⟨next, some tale.id, [], none⟩)

namespace Telling

variable {budget next : Nat} {tale after : Tale} {event : Event} {newborn? : Option Tale}

theorem concerned (telling : Telling budget next tale event after newborn?) :
    ∀ id ∈ event.machines, id = tale.id ∨ (id = next ∧ newborn?.isSome = true) := by
  cases telling <;> simp [Event.machines]

theorem kin_eq (telling : Telling budget next tale event after newborn?) :
    after.id = tale.id ∧ after.parent = tale.parent := by
  cases telling <;> exact ⟨rfl, rfl⟩

theorem output_eq (telling : Telling budget next tale event after newborn?) :
    after.output = tale.output ++ (event.byteOf? tale.id).toList := by
  cases telling <;> simp [Event.byteOf?]

theorem steps?_eq (telling : Telling budget next tale event after newborn?)
    (live : tale.steps? = none) : after.steps? = event.stepsOf? tale.id := by
  cases telling <;> simp [Event.stepsOf?, live]

theorem child?_eq (telling : Telling budget next tale event after newborn?) :
    event.child? = if newborn?.isSome = true then some next else none := by
  cases telling <;> rfl

/-- The machine that is forked off has caused no event yet. -/
theorem newborn (telling : Telling budget next tale event after newborn?) {newborn : Tale}
    (born : newborn? = some newborn) : newborn = ⟨next, some tale.id, [], none⟩ ∧
      ∃ live, live ≤ budget ∧ event = .forked tale.id next live := by
  cases telling with
  | forked within => exact ⟨(Option.some.inj born).symm, _, within, rfl⟩
  | _ => contradiction

/-- A fork tells of the machine that is forked off. -/
theorem of_forked {parent child live : Nat}
    (telling : Telling budget next tale (.forked parent child live) after newborn?) :
    parent = tale.id ∧ child = next ∧ live ≤ budget := by
  cases telling with
  | forked within => exact ⟨rfl, rfl, within⟩

end Telling

/-- The log tells the tales and the refusals, and `next` is the id of the next machine. -/
structure Retold (budget next : Nat) (log : List Event) (refusals : List Refusal)
    (tales : List Tale) : Prop where
  known : ∀ event ∈ log, ∀ id ∈ event.machines, id < next
  output : ∀ tale ∈ tales, log.filterMap (Event.byteOf? tale.id) = tale.output
  children : 0 :: log.filterMap Event.child? = List.range next
  forked : ∀ {parent child live : Nat}, .forked parent child live ∈ log →
    live ≤ budget ∧ ∀ tale ∈ tales, tale.id = child → tale.parent = some parent
  halted : ∀ tale ∈ tales, log.filterMap (Event.stepsOf? tale.id) = tale.steps?.toList
  silent : log.Pairwise fun earlier later => ∀ id ∈ later.machines, earlier.stepsOf? id = none
  refused : log.filter Event.isRefusal = refusals.map Refusal.event

namespace Retold

variable {budget next : Nat} {log : List Event} {refusals : List Refusal} {tales : List Tale}

/-- The order of the tales does not matter. -/
theorem perm {others : List Tale} (retold : Retold budget next log refusals tales)
    (same : others.Perm tales) : Retold budget next log refusals others where
  known := retold.known
  output tale taleMem := retold.output tale (same.mem_iff.mp taleMem)
  children := retold.children
  forked forked := (retold.forked forked).imp_right fun parents tale taleMem =>
    parents tale (same.mem_iff.mp taleMem)
  halted tale taleMem := retold.halted tale (same.mem_iff.mp taleMem)
  silent := retold.silent
  refused := retold.refused

/-- No event concerns a machine that is yet to come. -/
theorem not_concerned (retold : Retold budget next log refusals tales) {event : Event}
    (eventMem : event ∈ log) : next ∉ event.machines := by
  intro concerned
  exact Nat.lt_irrefl next (retold.known event eventMem next concerned)

/-- No event says that a machine has halted which goes on, or which is yet to come. -/
theorem not_halted {tale : Tale} (retold : Retold budget next log refusals (tale :: tales))
    (live : tale.steps? = none) {event : Event} (eventMem : event ∈ log) :
    event.stepsOf? tale.id = none ∧ event.stepsOf? next = none := by
  constructor
  · have halted := retold.halted tale List.mem_cons_self
    rw [live] at halted
    exact List.filterMap_eq_nil_iff.mp halted event eventMem
  · exact Event.stepsOf?_eq_none (retold.not_concerned eventMem)

/-- What holds of the tale after an event, of the tale of a machine that is forked off and of the
other tales, holds of all of them. -/
theorem forall_after {holds : Tale → Prop} {after : Tale} {newborn? : Option Tale}
    (own : holds after) (born : ∀ newborn, newborn? = some newborn → holds newborn)
    (others : ∀ other ∈ tales, holds other) :
    ∀ known ∈ after :: (newborn?.toList ++ tales), holds known := by
  rw [List.forall_mem_cons, List.forall_mem_append]
  exact ⟨own, fun newborn newbornMem => born newborn (Option.mem_toList.mp newbornMem), others⟩

variable {tale after : Tale} {newborn? : Option Tale} {event : Event}

/-- What is told of machines one event at a time, and only by the events that concern them, is
told on by the next event. -/
theorem forall_told {α : Type} {about : Nat → Event → Option α} (told : Tale → List α)
    (unconcerned : ∀ {id : Nat} {event : Event}, id ∉ event.machines → about id event = none)
    (retold : Retold budget next log refusals (tale :: tales))
    (strangers : ∀ other ∈ tales, other.id ≠ tale.id ∧ other.id < next)
    (telling : Telling budget next tale event after newborn?)
    (before : ∀ known ∈ tale :: tales, log.filterMap (about known.id) = told known)
    (own : told after = told tale ++ (about tale.id event).toList)
    (fresh : ∀ newborn, newborn? = some newborn → told newborn = [] ∧ about next event = none) :
    ∀ known ∈ after :: (newborn?.toList ++ tales),
      (log ++ [event]).filterMap (about known.id) = told known := by
  rw [List.forall_mem_cons] at before
  apply forall_after
  · rw [List.filterMap_append, telling.kin_eq.1, before.1, own]
    cases heard : about tale.id event <;> simp [heard]
  · intro newborn born
    obtain ⟨nothing, silent⟩ := fresh newborn born
    have id_eq : newborn.id = next := congrArg Tale.id (telling.newborn born).1
    have unheard : log.filterMap (about next) = [] := List.filterMap_eq_nil_iff.mpr
      fun earlier earlierMem => unconcerned (retold.not_concerned earlierMem)
    simp [id_eq, nothing, silent, unheard]
  · intro other otherMem
    obtain ⟨stranger, within⟩ := strangers other otherMem
    have silent : about other.id event = none := by
      apply unconcerned
      intro concerned
      rcases telling.concerned _ concerned with same | ⟨same, _⟩
      · exact stranger same
      · exact Nat.ne_of_lt within same
    simp [before.2 other otherMem, silent]

/-- The parents that forks have told of are still those of the tales. -/
theorem forked_of_mem {parent child live : Nat}
    (retold : Retold budget next log refusals (tale :: tales))
    (telling : Telling budget next tale event after newborn?)
    (logged : .forked parent child live ∈ log) :
    live ≤ budget ∧ ∀ known ∈ after :: (newborn?.toList ++ tales), known.id = child →
      known.parent = some parent := by
  obtain ⟨room, parents⟩ := retold.forked logged
  have elder : child < next := retold.known _ logged child (by simp [Event.machines])
  rw [List.forall_mem_cons] at parents
  refine ⟨room, forall_after ?_ ?_ parents.2⟩
  · rw [telling.kin_eq.1, telling.kin_eq.2]
    exact parents.1
  · intro newborn born id_eq
    rw [(telling.newborn born).1] at id_eq
    exact absurd id_eq (Nat.ne_of_gt elder)

/-- A fork tells of the parent of the machine that is forked off. -/
theorem forked_of_telling {parent child live : Nat} (within : tale.id < next)
    (strangers : ∀ other ∈ tales, other.id ≠ tale.id ∧ other.id < next)
    (telling : Telling budget next tale (.forked parent child live) after newborn?) :
    live ≤ budget ∧ ∀ known ∈ after :: (newborn?.toList ++ tales), known.id = child →
      known.parent = some parent := by
  obtain ⟨rfl, rfl, room⟩ := telling.of_forked
  refine ⟨room, forall_after ?_ ?_ ?_⟩
  · rw [telling.kin_eq.1]
    exact fun id_eq => absurd id_eq (Nat.ne_of_lt within)
  · intro newborn born _
    rw [(telling.newborn born).1]
  · exact fun other otherMem id_eq => absurd id_eq (Nat.ne_of_lt (strangers other otherMem).2)

/-- An event carries what is told on to the tales after it. -/
theorem tell {more : List Refusal} (retold : Retold budget next log refusals (tale :: tales))
    (live : tale.steps? = none) (within : tale.id < next)
    (strangers : ∀ other ∈ tales, other.id ≠ tale.id ∧ other.id < next)
    (telling : Telling budget next tale event after newborn?)
    (refused : [event].filter Event.isRefusal = more.map Refusal.event) :
    Retold budget (next + newborn?.toList.length) (log ++ [event]) (refusals ++ more)
      (after :: (newborn?.toList ++ tales)) where
  known := by
    rw [List.forall_mem_append, List.forall_mem_singleton]
    constructor
    · intro earlier earlierMem id idMem
      exact Nat.lt_add_right _ (retold.known earlier earlierMem id idMem)
    · intro id idMem
      rcases telling.concerned id idMem with rfl | ⟨rfl, born⟩
      · exact Nat.lt_add_right _ within
      · obtain ⟨newborn, rfl⟩ := Option.isSome_iff_exists.mp born
        exact Nat.lt_succ_self _
  output := by
    apply forall_told Tale.output Event.byteOf?_eq_none retold strangers telling retold.output
      telling.output_eq
    intro newborn born
    obtain ⟨rfl, live, _, rfl⟩ := telling.newborn born
    exact ⟨rfl, rfl⟩
  children := by
    rw [List.filterMap_append, ← List.cons_append, retold.children]
    cases newborn? with
    | none => simp [telling.child?_eq]
    | some newborn => simp [telling.child?_eq, List.range_succ]
  forked := by
    intro parent child live eventMem
    rcases List.mem_append.mp eventMem with logged | eventMem
    · exact retold.forked_of_mem telling logged
    · obtain rfl := List.mem_singleton.mp eventMem
      exact forked_of_telling within strangers telling
  halted := by
    apply forall_told (fun tale => tale.steps?.toList) Event.stepsOf?_eq_none retold strangers
      telling retold.halted
    · rw [telling.steps?_eq live, live]
      rfl
    · intro newborn born
      obtain ⟨rfl, live, _, rfl⟩ := telling.newborn born
      exact ⟨rfl, rfl⟩
  silent := by
    rw [List.pairwise_append]
    refine ⟨retold.silent, List.pairwise_singleton _ _, ?_⟩
    intro earlier earlierMem later laterMem id idMem
    obtain rfl := List.mem_singleton.mp laterMem
    rcases telling.concerned id idMem with rfl | ⟨rfl, _⟩
    · exact (retold.not_halted live earlierMem).1
    · exact (retold.not_halted live earlierMem).2
  refused := by
    rw [List.filter_append, retold.refused, refused, List.map_append]

end Retold

/-! ## What turns tell -/

/-- Carrying out an instruction causes an event that tells of the machine, if it causes one. -/
theorem Machine.perform_telling {program : Program} {overflow : Tape.Overflow}
    {instruction : Instruction} {machine next : Machine} {event? : Option Event}
    (budget child : Nat)
    (performed : perform program overflow instruction machine = ⟨next, .ok .advanced, event?⟩) :
    (event? = none ∧ next.tale = machine.tale) ∨ ∃ event, event? = some event ∧
      event.isRefusal = false ∧ Telling budget child machine.tale event next.tale none := by
  cases instruction with
  | right =>
      rcases moved : machine.tape.right overflow with ⟨tape, result⟩
      simp only [perform, moved] at performed
      cases result with
      | moved =>
          cases performed
          exact .inl ⟨rfl, rfl⟩
      | grew =>
          cases performed
          exact .inr ⟨_, rfl, rfl, .grew _⟩
      | clamped =>
          cases performed
          exact .inr ⟨_, rfl, rfl, .clamped _ _⟩
      | rejected => cases performed
  | output =>
      cases performed
      refine .inr ⟨_, rfl, rfl, ?_⟩
      have written : (advance { machine with
          output := machine.output.push machine.tape.scanned }).tale =
          { machine.tale with output := machine.tale.output ++ [machine.tape.scanned] } := by
        simp only [tale, advance, Array.toList_push]
        rfl
      rw [written]
      exact .wrote machine.tape.scanned
  | fork => cases performed
  | _ =>
      cases performed
      exact .inl ⟨rfl, rfl⟩

namespace Pool

namespace Round

/-- What a turn of `machine` tells. The round is given without the machine. -/
inductive Told (config : Config) (machine : Machine) (round after : Round) : Prop
  | silent {next : Machine} (tale : next.tale = machine.tale)
      (members : after.members.Perm (next :: round.members))
      (nextId : after.ledger.nextId = round.ledger.nextId)
      (log : after.ledger.log = round.ledger.log)
      (refusals : after.ledger.refusals = round.ledger.refusals)
  | told (next : Machine) (newborn? : Option Machine) (event : Event) (more : List Refusal)
      (live : machine.halted = false)
      (telling : Telling config.maxLive round.ledger.nextId machine.tale event next.tale
        (newborn?.map Machine.tale))
      (members : after.members.Perm (next :: (newborn?.toList ++ round.members)))
      (nextId : after.ledger.nextId = round.ledger.nextId + newborn?.toList.length)
      (log : after.ledger.log.toList = round.ledger.log.toList ++ [event])
      (refusals : after.ledger.refusals.toList = round.ledger.refusals.toList ++ more)
      (refused : [event].filter Event.isRefusal = more.map Refusal.event)

variable {program : Program} {config : Config} {machine : Machine} {round : Round}

theorem tale_count (live : machine.halted = false) : machine.count.tale = machine.tale := by
  simp [Machine.tale, Machine.count, live]

/-- The resolving of a `fork` tells what it changes. -/
theorem Resolved.told {after : Round} (live : machine.halted = false)
    (resolved : Resolved config machine round after) : Told config machine round after := by
  cases resolved with
  | forked room =>
      have telling : Telling config.maxLive round.ledger.nextId machine.tale
          (.forked machine.id round.ledger.nextId (round.others + 2))
          (machine.fork round.ledger.nextId config.inputSplit).1.tale
          (some (machine.fork round.ledger.nextId config.inputSplit).2.tale) :=
        .forked room
      exact .told _ (some _) _ [] live telling (members_visit_bear_book rfl _ _) rfl
        (Array.toList_push ..) (List.append_nil _).symm rfl
  | refused full =>
      have telling : Telling config.maxLive round.ledger.nextId machine.tale
          (.forkRefused machine.id (round.others + 1) config.maxLive) machine.passFork.tale none :=
        .refused _
      exact .told _ none _ [_] live telling (members_visit_book rfl _) rfl
        (Array.toList_push ..) (Array.toList_push ..) rfl

/-- Every turn tells what it changes. -/
theorem Turned.told {result : Except (Fault × Round) Round}
    (turned : Turned program config machine round result) :
    Told config machine round (left result) := by
  cases turned with
  | rested halted => exact .silent rfl (members_visit _ _) rfl rfl rfl
  | stopped live pending reached => exact .silent rfl (members_putBack _ _) rfl rfl rfl
  | @faulted next fault event? live admitted executed =>
      cases Machine.executes_of_exec executed with
      | limited live found reached => exact .silent rfl (members_putBack _ _) rfl rfl rfl
      | rejected live found admitted last =>
          exact .silent (tale_count live) (members_putBack _ _) rfl rfl rfl
  | @advanced next event? live admitted executed =>
      cases Machine.executes_of_exec executed with
      | @advanced instruction _ _ live found plain admitted performed =>
          have members : ((round.book (·.recordAny event? |>.countStep)).progress.visit
              next).members.Perm (next :: round.members) :=
            members_visit_book (Ledger.retired_recordAny _ _) next
          rcases Machine.perform_telling config.maxLive round.ledger.nextId performed with
            ⟨rfl, same⟩ | ⟨event, rfl, plain, telling⟩
          · exact .silent (same.trans (tale_count live)) members rfl rfl rfl
          · rw [tale_count live] at telling
            refine .told _ none _ [] live telling members rfl (Array.toList_push ..)
              (List.append_nil _).symm ?_
            simp [plain]
  | @halted next event? live admitted executed =>
      cases Machine.executes_of_exec executed with
      | rested halted => exact absurd halted (Bool.eq_false_iff.mp live)
      | ended live missing =>
          have telling : Telling config.maxLive round.ledger.nextId machine.tale
              (.halted machine.id machine.steps) machine.halt.tale none := .halted _
          exact .told _ none _ [] live telling (members_visit_book rfl _) rfl
            (Array.toList_push ..) (List.append_nil _).symm rfl
  | @atFork next event? after live admitted executed resolved =>
      cases Machine.executes_of_exec executed with
      | reachedFork live found admitted =>
          have others := members_retireHalted
            (round.book (·.recordAny none |>.countStep)).progress
          have counted : machine.count.halted = false := live
          cases resolved.told counted with
          | silent tale members nextId log refusals =>
              exact .silent (tale.trans (tale_count live)) (members.trans (others.cons _)) nextId
                log refusals
          | told next newborn? event more _ telling members nextId log refusals refused =>
              rw [tale_count live] at telling
              exact .told next newborn? event more live telling
                (members.trans ((others.append_left _).cons _)) nextId log refusals refused

end Round

/-- The log tells of all machines. -/
def Ledger.Retells (budget : Nat) (ledger : Ledger) (machines : List Machine) : Prop :=
  Retold budget ledger.nextId ledger.log.toList ledger.refusals.toList
    (machines.map Machine.tale)

theorem Ledger.Retells.perm {budget : Nat} {ledger : Ledger} {machines others : List Machine}
    (retells : ledger.Retells budget machines) (same : others.Perm machines) :
    ledger.Retells budget others :=
  Retold.perm retells (same.map _)

/-- Nothing has happened to the first machine yet. -/
theorem retells_initial (config : Config) (input : Input) :
    (initial config input).ledger.Retells config.maxLive (initial config input).members where
  known := by simp [initial]
  output := by simp [initial, members, Machine.initial, Machine.tale]
  children := rfl
  forked := by simp [initial]
  halted := by simp [initial, members, Machine.initial, Machine.tale]
  silent := List.Pairwise.nil
  refused := rfl

/-- A turn carries what is told on. -/
theorem Round.Told.retells {config : Config} {machine : Machine} {round after : Round}
    (told : Told config machine round after)
    (tells : round.ledger.Tells (machine :: round.members))
    (before : round.ledger.Retells config.maxLive (machine :: round.members)) :
    after.ledger.Retells config.maxLive after.members := by
  cases told with
  | @silent next tale members nextId log refusals =>
      apply Ledger.Retells.perm _ members
      rw [Ledger.Retells, List.map_cons, tale, nextId, log, refusals]
      exact before
  | told next newborn? event more live telling members nextId log refusals refused =>
      have going : machine.tale.steps? = none := by simp [Machine.tale, live]
      have strangers : ∀ other ∈ round.members.map Machine.tale,
          other.id ≠ machine.tale.id ∧ other.id < round.ledger.nextId := by
        rw [List.forall_mem_map]
        exact fun other otherMem =>
          ⟨tells.distinct.1 other otherMem, tells.id_lt (List.mem_cons_of_mem _ otherMem)⟩
      have next := Retold.tell before going (tells.id_lt List.mem_cons_self) strangers telling
        refused
      apply Ledger.Retells.perm _ members
      rw [Ledger.Retells, nextId, log, refusals]
      cases newborn? <;> exact next

/-- Turns and the retiring of halted machines carry what is told on. -/
theorem retells_kept (program : Program) (config : Config) :
    Kept program config fun pool => pool.ledger.Tells pool.members ∧
      pool.ledger.Retells config.maxLive pool.members where
  turn {machine round result} turned before := by
    have putBack := Round.members_toPool_putBack machine round
    have after := Round.members_toPool (Round.left result)
    have tells : round.ledger.Tells (machine :: round.members) := before.1.perm putBack.symm
    have retells : round.ledger.Retells config.maxLive (machine :: round.members) :=
      before.2.perm putBack.symm
    exact ⟨(tells_kept program config).turn turned before.1,
      (turned.told.retells tells retells).perm after⟩
  retire {pool} before :=
    ⟨(tells_kept program config).retire before.1, before.2.perm (members_retireHalted pool)⟩

/-! ## The report -/

/-- Whatever rounds and runs have led to a pool, and whether or not they ended in a fault, its log
tells its report over again. -/
theorem replays_of_reachable {program : Program} {config : Config} {input : Input} {pool : Pool}
    (reachable : Reachable program config input pool) :
    pool.report.Replays config.maxLive pool.ledger.log.toList := by
  obtain ⟨tells, retold⟩ := (retells_kept program config).of_reachable
    ⟨tells_initial config input, retells_initial config input⟩ reachable
  have taleMem {machine : Machine} (machineMem : machine ∈ pool.members) :
      machine.tale ∈ pool.members.map Machine.tale := List.mem_map_of_mem machineMem
  constructor
  · intro event eventMem id idMem
    obtain ⟨machine, machineMem, rfl⟩ :=
      tells.exists_id_iff.mpr (retold.known event eventMem id idMem)
    exact ⟨machine.result, mem_results_iff.mpr ⟨machine, machineMem, rfl⟩, rfl⟩
  · intro result resultMem
    obtain ⟨machine, machineMem, rfl⟩ := mem_results_iff.mp resultMem
    exact retold.output machine.tale (taleMem machineMem)
  · have count : pool.report.results.length = pool.ledger.nextId := by
      have ids := tells.lineage.ids.length_eq
      rw [List.length_map, List.length_map, List.length_range] at ids
      rw [report, List.length_map, pool.machines_perm_members.length_eq, ids]
    have children := congrArg List.tail retold.children
    rw [List.tail_cons, List.range_eq_range', List.tail_range'] at children
    rw [count, children]
  · intro parent child live eventMem
    obtain ⟨room, parents⟩ := retold.forked eventMem
    refine ⟨room, ?_⟩
    intro result resultMem id_eq
    obtain ⟨machine, machineMem, rfl⟩ := mem_results_iff.mp resultMem
    exact parents machine.tale (taleMem machineMem) id_eq
  · intro result resultMem
    obtain ⟨machine, machineMem, rfl⟩ := mem_results_iff.mp resultMem
    refine (retold.halted machine.tale (taleMem machineMem)).trans ?_
    cases halted : machine.halted <;> simp [Machine.tale, Machine.result, halted]
  · exact retold.silent
  · rw [retold.refused, List.map_map]
    rfl

end Pool

end ForkTape
