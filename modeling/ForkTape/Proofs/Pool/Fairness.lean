import ForkTape.Proofs.Pool.Pace

/-!
# Fairness

`afterRounds` plays rounds one after the other, beginning with the pool of the first machine. As
long as none of them ends in a fault, `fair_afterRounds` tells what every machine does in every
round: nothing up to the round of its birth, one instruction in each of the rounds that follow,
and nothing but halting in the one after them. It does not matter what other machines do.
-/

namespace ForkTape.Pool

/-- What a live machine does in a turn without a fault. -/
inductive Deed
  | executed (instruction : Instruction)
  | halted
  deriving DecidableEq, Repr

/-- What a live machine does when it has a turn. -/
def deed (program : Program) (machine : Machine) : Deed :=
  match program.instruction? machine.ip with
  | some instruction => .executed instruction
  | none => .halted

/-- What is done in a turn. A halted machine does nothing, and nor does one that faults. -/
def Move.deed? (program : Program) (config : Config) (move : Move) : Option Deed :=
  if (move.result program config).isOk && !move.machine.halted then
    some (deed program move.machine)
  else none

/-- What the machine `id` does in the next round, turn by turn. -/
def deeds (program : Program) (config : Config) (id : Nat) (pool : Pool) : List Deed :=
  ((pool.moves program config).filter fun move => move.machine.id == id).filterMap
    (Move.deed? program config)

/-- The pool that so many rounds lead to. -/
def afterRounds (program : Program) (config : Config) (input : Input) : Nat → Pool
  | 0 => initial config input
  | rounds + 1 => ((afterRounds program config input rounds).sweep program config).1

/-- The machine `id` was born in this round. The first machine was there before all rounds, and
every other one is forked off in the round of its birth. -/
def Born (program : Program) (config : Config) (input : Input) (id : Nat) : Nat → Prop
  | 0 => id = 0
  | rounds + 1 => ∃ move ∈ (afterRounds program config input rounds).moves program config,
      move.child? program config = some id

/-- What falls to a machine in a round, when it was born in the round `birth` and has executed
`steps` instructions in all. -/
inductive Share (birth steps : Nat) : Nat → List Deed → Prop
  | unborn {round : Nat} (early : round ≤ birth) : Share birth steps round []
  | executes {round : Nat} {instruction : Instruction} (later : birth < round)
      (due : round ≤ birth + steps) : Share birth steps round [.executed instruction]
  | halts : Share birth steps (birth + steps + 1) [.halted]
  | rests {round : Nat} (late : birth + steps + 1 < round) : Share birth steps round []

/-- So many rounds have treated all machines alike. -/
structure Fair (program : Program) (config : Config) (input : Input) (birth : Nat → Nat)
    (rounds : Nat) : Prop where
  /-- Every machine was born in the round `birth id` and in no other. -/
  born : ∀ machine ∈ (afterRounds program config input rounds).machines,
    birth machine.id ≤ rounds ∧
      ∀ round ≤ rounds, Born program config input machine.id round ↔ round = birth machine.id
  /-- The births ascend with the ids. -/
  monotone : ∀ first ∈ (afterRounds program config input rounds).machines,
    ∀ second ∈ (afterRounds program config input rounds).machines,
      first.id ≤ second.id → birth first.id ≤ birth second.id
  /-- A live machine has executed an instruction for every round since its birth. -/
  live : ∀ machine ∈ (afterRounds program config input rounds).machines,
    machine.halted = false → machine.steps = rounds - birth machine.id
  /-- A machine that has halted had a round left to halt in. -/
  halted : ∀ machine ∈ (afterRounds program config input rounds).machines,
    machine.halted = true → birth machine.id + machine.steps + 1 ≤ rounds
  /-- In every round every machine has done what falls to it. -/
  shares : ∀ machine ∈ (afterRounds program config input rounds).machines,
    ∀ earlier < rounds, Share (birth machine.id) machine.steps (earlier + 1)
      (deeds program config machine.id (afterRounds program config input earlier))

variable {program : Program} {config : Config} {input : Input}

/-- What has fallen to a machine while it was live does not change by what it does later. -/
theorem Share.mono {birth steps later round : Nat} {done : List Deed}
    (share : Share birth steps round done) (more : steps ≤ later)
    (within : round ≤ birth + steps) : Share birth later round done := by
  cases share with
  | unborn early => exact .unborn early
  | executes after due =>
      exact .executes after (Nat.le_trans due (Nat.add_le_add_left more birth))
  | halts => exact absurd within (Nat.not_succ_le_self _)
  | rests late => exact absurd within (by omega)

/-- Where ids are distinct, one machine has the id. -/
theorem filter_id_eq {machines : List Machine} {machine : Machine}
    (nodup : (machines.map Machine.id).Nodup) (machineMem : machine ∈ machines) :
    (machines.filter fun other => other.id == machine.id) = [machine] := by
  induction machines with
  | nil => contradiction
  | cons first others ih =>
      rw [List.map_cons, List.nodup_cons] at nodup
      rcases List.mem_cons.mp machineMem with rfl | machineMem
      · simp only [List.filter_cons, beq_self_eq_true, if_true, List.cons.injEq, true_and]
        apply List.filter_eq_nil_iff.mpr
        intro other otherMem same
        exact nodup.1 (beq_iff_eq.mp same ▸ List.mem_map_of_mem otherMem)
      · rw [List.filter_cons_of_neg, ih nodup.2 machineMem]
        intro same
        exact nodup.1 (beq_iff_eq.mp same ▸ List.mem_map_of_mem machineMem)

namespace Played

variable {pool next : Pool}

/-- In a round without a fault a machine does what it has come to. -/
theorem deeds_eq (played : Played program config pool next) (tidy : pool.Tidy) (id : Nat) :
    deeds program config id pool =
      (pool.registered.filter fun machine => machine.id == id).map (deed program) := by
  have done : ∀ move ∈ pool.moves program config,
      move.deed? program config = some (deed program move.machine) := by
    intro move moveMem
    have live : move.machine.halted = false := by
      apply tidy.live
      rw [← played.order]
      exact List.mem_map_of_mem moveMem
    simp [Move.deed?, played.sound move moveMem, live]
  rw [deeds, ← played.order, List.filter_map, List.map_map]
  rw [List.filterMap_congr fun move moveMem => done move (List.mem_of_mem_filter moveMem)]
  exact congrFun (List.filterMap_eq_map (f := fun move : Move => deed program move.machine)) _

/-- Who is not registered does nothing. -/
theorem deeds_eq_nil (played : Played program config pool next) (tidy : pool.Tidy) {id : Nat}
    (absent : ∀ machine ∈ pool.registered, machine.id ≠ id) :
    deeds program config id pool = [] := by
  rw [played.deeds_eq tidy, List.filter_eq_nil_iff.mpr, List.map_nil]
  intro machine machineMem same
  exact absent machine machineMem (beq_iff_eq.mp same)

end Played

/-- What is told of so many rounds when another one is to come: besides what is fair about them,
that the ids not given away yet play no part in them. -/
structure Told (program : Program) (config : Config) (input : Input) (birth : Nat → Nat)
    (rounds : Nat) : Prop where
  paced : Paced birth rounds (afterRounds program config input rounds)
  born : ∀ id < (afterRounds program config input rounds).ledger.nextId, ∀ round ≤ rounds,
    Born program config input id round ↔ round = birth id
  shares : ∀ machine ∈ (afterRounds program config input rounds).members,
    ∀ earlier < rounds, Share (birth machine.id) machine.steps (earlier + 1)
      (deeds program config machine.id (afterRounds program config input earlier))
  unborn : ∀ id, (afterRounds program config input rounds).ledger.nextId ≤ id →
    ∀ round ≤ rounds, ¬ Born program config input id round
  idle : ∀ id, (afterRounds program config input rounds).ledger.nextId ≤ id →
    ∀ earlier < rounds, deeds program config id (afterRounds program config input earlier) = []

theorem told_initial (program : Program) (config : Config) (input : Input) :
    Told program config input (fun _ => 0) 0 where
  paced := paced_initial config input
  born id id_lt round round_le := by
    obtain rfl : id = 0 := Nat.lt_one_iff.mp id_lt
    obtain rfl : round = 0 := Nat.le_zero.mp round_le
    exact iff_of_true rfl rfl
  shares machine _ earlier earlier_lt := absurd earlier_lt (Nat.not_lt_zero earlier)
  unborn id le_id round round_le := by
    obtain rfl : round = 0 := Nat.le_zero.mp round_le
    exact Nat.ne_of_gt le_id
  idle id _ earlier earlier_lt := absurd earlier_lt (Nat.not_lt_zero earlier)

namespace Told

variable {birth : Nat → Nat} {rounds : Nat} {next : Pool}

/-- A machine that has been retired does nothing in the next round. -/
theorem share_of_retired (told : Told program config input birth rounds)
    (played : Played program config (afterRounds program config input rounds) next)
    {machine : Machine}
    (retired : machine ∈ (afterRounds program config input rounds).ledger.retired.toList) :
    Share (birth machine.id) machine.steps (rounds + 1)
      (deeds program config machine.id (afterRounds program config input rounds)) := by
  have tidy := told.paced.tidy
  have nodup := told.paced.ordered.tells.nodup_ids
  rw [members, List.map_append, List.nodup_append'] at nodup
  rw [played.deeds_eq_nil tidy]
  · apply Share.rests
    apply Nat.succ_lt_succ
    have inPace := told.paced.inPace machine (List.mem_append_left _ retired)
    exact inPace.halted (tidy.halted machine retired)
  · intro other otherMem same
    exact nodup.2.2 (List.mem_map_of_mem retired) (same ▸ List.mem_map_of_mem otherMem)

/-- A registered machine does in the next round what it has come to. -/
theorem share_of_plays (told : Told program config input birth rounds)
    (played : Played program config (afterRounds program config input rounds) next)
    {machine after : Machine}
    (machineMem : machine ∈ (afterRounds program config input rounds).registered)
    (plays : Plays program config machine after) :
    machine.steps ≤ after.steps ∧ Share (birth machine.id) after.steps (rounds + 1)
      (deeds program config machine.id (afterRounds program config input rounds)) := by
  have tidy := told.paced.tidy
  have nodup := told.paced.ordered.tells.nodup_ids
  rw [members, List.map_append, List.nodup_append'] at nodup
  have wasMem : machine ∈ (afterRounds program config input rounds).members :=
    List.mem_append_right _ machineMem
  have even := (told.paced.inPace machine wasMem).live (tidy.live machine machineMem)
  rw [played.deeds_eq tidy, filter_id_eq nodup.2.1 machineMem, List.map_singleton, deed]
  cases plays with
  | executed found admitted id live steps =>
      rw [found, steps]
      refine ⟨Nat.le_succ _, .executes ?_ ?_⟩
      · exact Nat.lt_succ_of_le (told.paced.birth_le _ (told.paced.id_lt wasMem))
      · exact Nat.le_of_eq (congrArg (· + 1) even.symm)
  | halted missing halted =>
      rw [halted, missing, ← even]
      exact ⟨Nat.le_refl _, .halts⟩

/-- An id that has not been given away plays no part in the next round either. -/
theorem idle_succ (told : Told program config input birth rounds)
    (played : Played program config (afterRounds program config input rounds) next) {id : Nat}
    (unborn : (afterRounds program config input rounds).ledger.nextId ≤ id) :
    ∀ earlier < rounds + 1,
      deeds program config id (afterRounds program config input earlier) = [] := by
  intro earlier earlier_lt
  rcases Nat.lt_succ_iff_lt_or_eq.mp earlier_lt with earlier_lt | rfl
  · exact told.idle id unborn earlier earlier_lt
  · apply played.deeds_eq_nil told.paced.tidy
    intro other otherMem
    have known := told.paced.id_lt (List.mem_append_right _ otherMem)
    exact Nat.ne_of_lt (Nat.lt_of_lt_of_le known unborn)

/-- What has fallen to every machine after another round. -/
theorem shares_succ (told : Told program config input birth rounds)
    (played : Played program config (afterRounds program config input rounds) next) :
    ∀ machine ∈ next.members, ∀ earlier < rounds + 1,
      Share (laterBirth birth (afterRounds program config input rounds).ledger.nextId
        (rounds + 1) machine.id) machine.steps (earlier + 1)
        (deeds program config machine.id (afterRounds program config input earlier)) := by
  intro machine machineMem earlier earlier_lt
  rcases played.become machine machineMem with retired | ⟨before, beforeMem, plays⟩ | isNew
  · have wasMem : machine ∈ (afterRounds program config input rounds).members :=
      List.mem_append_left _ retired
    rw [laterBirth_of_lt (told.paced.id_lt wasMem)]
    rcases Nat.lt_succ_iff_lt_or_eq.mp earlier_lt with earlier_lt | rfl
    · exact told.shares machine wasMem earlier earlier_lt
    · exact told.share_of_retired played retired
  · have wasMem : before ∈ (afterRounds program config input rounds).members :=
      List.mem_append_right _ beforeMem
    have even := (told.paced.inPace before wasMem).live (told.paced.tidy.live before beforeMem)
    obtain ⟨more, share⟩ := told.share_of_plays played beforeMem plays
    rw [plays.id_eq, laterBirth_of_lt (told.paced.id_lt wasMem)]
    rcases Nat.lt_succ_iff_lt_or_eq.mp earlier_lt with earlier_lt | rfl
    · exact (told.shares before wasMem earlier earlier_lt).mono more (even ▸ earlier_lt)
    · exact share
  · rw [laterBirth_of_le isNew.id, told.idle_succ played isNew.id earlier earlier_lt]
    exact .unborn earlier_lt

/-- The machines that are forked off in the next round are born in it, and no others are. -/
theorem born_succ (told : Told program config input birth rounds)
    (played : Played program config (afterRounds program config input rounds) next) {id : Nat}
    (id_lt : id < next.ledger.nextId) :
    ∀ round ≤ rounds + 1, Born program config input id round ↔
      round = laterBirth birth (afterRounds program config input rounds).ledger.nextId
        (rounds + 1) id := by
  intro round round_le
  by_cases earlier : id < (afterRounds program config input rounds).ledger.nextId
  · rw [laterBirth_of_lt earlier]
    rcases Nat.le_succ_iff.mp round_le with round_le | rfl
    · exact told.born id earlier round round_le
    · apply iff_of_false
      · intro born
        exact Nat.not_le_of_lt earlier ((played.births id).mp born).1
      · exact Nat.ne_of_gt (Nat.lt_succ_of_le (told.paced.birth_le id earlier))
  · have later := Nat.le_of_not_lt earlier
    rw [laterBirth_of_le later]
    rcases Nat.le_succ_iff.mp round_le with round_le | rfl
    · apply iff_of_false (told.unborn id later round round_le)
      exact Nat.ne_of_lt (Nat.lt_succ_of_le round_le)
    · exact iff_of_true ((played.births id).mpr ⟨later, id_lt⟩) rfl

/-- An id that is not given away in the next round is not born in it either. -/
theorem unborn_succ (told : Told program config input birth rounds)
    (played : Played program config (afterRounds program config input rounds) next) {id : Nat}
    (le_id : next.ledger.nextId ≤ id) :
    ∀ round ≤ rounds + 1, ¬ Born program config input id round := by
  intro round round_le
  rcases Nat.le_succ_iff.mp round_le with round_le | rfl
  · exact told.unborn id (Nat.le_trans played.nextId le_id) round round_le
  · intro born
    exact Nat.not_lt_of_le le_id ((played.births id).mp born).2

/-- What is told of the rounds goes on to be told when another one does not end in a fault. -/
theorem succ (told : Told program config input birth rounds) {progressed : Bool}
    (finished : ((afterRounds program config input rounds).sweep program config).2 =
      .ok progressed) :
    Told program config input
      (laterBirth birth (afterRounds program config input rounds).ledger.nextId (rounds + 1))
      (rounds + 1) := by
  have swept : (afterRounds program config input rounds).sweep program config =
      (afterRounds program config input (rounds + 1), .ok progressed) := Prod.ext rfl finished
  have played := played_sweep told.paced.tidy swept
  constructor
  · exact told.paced.sweep swept
  · intro id id_lt
    exact told.born_succ played id_lt
  · exact told.shares_succ played
  · intro id le_id
    exact told.unborn_succ played le_id
  · intro id le_id
    exact told.idle_succ played (Nat.le_trans played.nextId le_id)

/-- What is told is fair. -/
theorem fair (told : Told program config input birth rounds) :
    Fair program config input birth rounds := by
  have memOf {machine : Machine}
      (machineMem : machine ∈ (afterRounds program config input rounds).machines) :
      machine ∈ (afterRounds program config input rounds).members :=
    (machines_perm_members _).mem_iff.mp machineMem
  constructor
  · intro machine machineMem
    have known := told.paced.id_lt (memOf machineMem)
    exact ⟨told.paced.birth_le _ known, told.born _ known⟩
  · intro first firstMem second secondMem le
    exact told.paced.monotone _ _ le (told.paced.id_lt (memOf secondMem))
  · intro machine machineMem live
    have even := (told.paced.inPace machine (memOf machineMem)).live live
    exact (Nat.sub_eq_of_eq_add' even.symm).symm
  · intro machine machineMem halted
    exact (told.paced.inPace machine (memOf machineMem)).halted halted
  · intro machine machineMem
    exact told.shares machine (memOf machineMem)

end Told

/-- As long as no round ends in a fault, all machines are treated alike: there are births, which
ascend with the ids, such that a live machine has executed an instruction in every round since its
birth, a machine that has halted did so in the round after its last instruction, and no machine has
done anything else. -/
theorem fair_afterRounds {program : Program} {config : Config} {input : Input} {rounds : Nat}
    (finished : ∀ earlier < rounds, ∃ progressed,
      ((afterRounds program config input earlier).sweep program config).2 = .ok progressed) :
    ∃ birth, Fair program config input birth rounds := by
  have told : ∃ birth, Told program config input birth rounds := by
    induction rounds with
    | zero => exact ⟨_, told_initial program config input⟩
    | succ rounds ih =>
        obtain ⟨birth, told⟩ := ih fun earlier earlier_lt =>
          finished earlier (Nat.lt_succ_of_lt earlier_lt)
        obtain ⟨progressed, last⟩ := finished rounds (Nat.lt_succ_self rounds)
        exact ⟨_, told.succ last⟩
  obtain ⟨birth, told⟩ := told
  exact ⟨birth, told.fair⟩

/-- The program that forks and adds one to its cell. -/
def forkInc : Program where
  instructions := #[.fork, .inc]
  offsets := #[0, 4]
  pairing := ⟨#[none, none]⟩
  paired := rfl

/-- The machine that is forked off in the first round executes one instruction in the second and
halts in the third, like the first machine, which has executed two. -/
theorem forkInc_fair :
    (∀ earlier < 3, ∃ progressed, ((afterRounds forkInc {} ⟨[]⟩ earlier).sweep forkInc {}).2 =
      .ok progressed) ∧
    ∃ birth, Fair forkInc {} ⟨[]⟩ birth 3 ∧ birth 0 = 0 ∧ birth 1 = 1 ∧
      ((afterRounds forkInc {} ⟨[]⟩ 3).members.map fun machine =>
        (machine.halted, machine.steps)) = [(true, 2), (true, 1)] := by
  have finished : ∀ earlier < 3, ∃ progressed,
      ((afterRounds forkInc {} ⟨[]⟩ earlier).sweep forkInc {}).2 = .ok progressed
    | 0, _ => ⟨_, rfl⟩
    | 1, _ => ⟨_, rfl⟩
    | 2, _ => ⟨_, rfl⟩
  obtain ⟨birth, fair⟩ := fair_afterRounds finished
  have memOf {machine : Machine}
      (machineMem : machine ∈ (afterRounds forkInc {} ⟨[]⟩ 3).members) :
      machine ∈ (afterRounds forkInc {} ⟨[]⟩ 3).machines :=
    (machines_perm_members _).mem_iff.mpr machineMem
  refine ⟨finished, birth, fair, ?_, ?_, rfl⟩
  · have born := (fair.born _ (memOf List.mem_cons_self)).2 0 (Nat.zero_le 3)
    exact (born.mp rfl).symm
  · have born := (fair.born _ (memOf (List.mem_cons_of_mem _ List.mem_cons_self))).2 1 (by decide)
    exact (born.mp ⟨_, List.mem_cons_self, rfl⟩).symm

end ForkTape.Pool
