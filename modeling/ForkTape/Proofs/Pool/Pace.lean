import ForkTape.Proofs.Pool.Order
import ForkTape.Proofs.Pool.Played

/-!
# The pace of rounds

As long as no round ends in a fault, a live machine has executed one instruction for every round
since its birth, and one that has halted has fallen behind. So the births of the machines and the
number of rounds tell how many instructions each of them has executed (`Paced`).

Ids are given away in ascending order, so the births ascend with them, and of two live machines
the older one is ahead (`Paced.steps_le`).
-/

namespace ForkTape.Pool

/-- A machine that was born in the round `birth` has kept up with the rounds, of which there have
been `rounds`, for as long as it has been live. -/
structure InPace (birth rounds : Nat) (machine : Machine) : Prop where
  live : machine.halted = false → birth + machine.steps = rounds
  halted : machine.halted = true → birth + machine.steps < rounds

variable {program : Program} {config : Config}

namespace InPace

variable {birth rounds : Nat} {machine next : Machine}

/-- Nothing is expected of a halted machine. -/
theorem of_halted (inPace : InPace birth rounds machine) (halted : machine.halted = true) :
    InPace birth (rounds + 1) machine where
  live live := by
    rw [halted] at live
    contradiction
  halted _ := Nat.lt_succ_of_lt (inPace.halted halted)

/-- A live machine keeps up by having a turn. -/
theorem plays (inPace : InPace birth rounds machine) (live : machine.halted = false)
    (plays : Plays program config machine next) : InPace birth (rounds + 1) next := by
  have even := inPace.live live
  cases plays with
  | executed found admitted id nextLive steps =>
      constructor
      · intro _
        rw [steps, ← Nat.add_assoc, even]
      · intro halted
        rw [nextLive] at halted
        contradiction
  | halted missing halted =>
      subst halted
      constructor
      · intro live
        contradiction
      · intro _
        exact even ▸ Nat.lt_succ_self _

/-- A machine begins in the round after its birth. -/
theorem of_isNew {nextId : Nat} (isNew : IsNew nextId machine) : InPace birth birth machine where
  live _ := by rw [isNew.steps, Nat.add_zero]
  halted halted := by
    rw [isNew.live] at halted
    contradiction

end InPace

/-- The births when the machines from the id `nextId` on are born in `round`. -/
def laterBirth (birth : Nat → Nat) (nextId round : Nat) : Nat → Nat :=
  fun id => if id < nextId then birth id else round

theorem laterBirth_of_lt {birth : Nat → Nat} {nextId round id : Nat} (earlier : id < nextId) :
    laterBirth birth nextId round id = birth id :=
  if_pos earlier

theorem laterBirth_of_le {birth : Nat → Nat} {nextId round id : Nat} (later : nextId ≤ id) :
    laterBirth birth nextId round id = round :=
  if_neg (Nat.not_lt.mpr later)

/-- All machines have kept up with the rounds, of which there have been `rounds`, when the machine
`id` was born in the round `birth id`. -/
structure Paced (birth : Nat → Nat) (rounds : Nat) (pool : Pool) : Prop where
  tidy : pool.Tidy
  ordered : pool.Ordered
  birth_le : ∀ id < pool.ledger.nextId, birth id ≤ rounds
  monotone : ∀ first second, first ≤ second → second < pool.ledger.nextId →
    birth first ≤ birth second
  inPace : ∀ machine ∈ pool.members, InPace (birth machine.id) rounds machine

theorem paced_initial (config : Config) (input : Input) :
    Paced (fun _ => 0) 0 (initial config input) where
  tidy := tidy_initial config input
  ordered := ordered_initial config input
  birth_le _ _ := Nat.le_refl 0
  monotone _ _ _ _ := Nat.le_refl 0
  inPace machine machineMem := by
    obtain rfl := List.mem_singleton.mp machineMem
    exact ⟨fun _ => rfl, by simp [Machine.initial]⟩

namespace Paced

variable {birth : Nat → Nat} {rounds : Nat} {pool next : Pool}

theorem id_lt (paced : Paced birth rounds pool) {machine : Machine}
    (machineMem : machine ∈ pool.members) : machine.id < pool.ledger.nextId :=
  paced.ordered.tells.id_lt machineMem

/-- Of two live machines the older one is ahead. -/
theorem steps_le (paced : Paced birth rounds pool) {older younger : Machine}
    (olderMem : older ∈ pool.registered) (youngerMem : younger ∈ pool.registered)
    (ids : older.id ≤ younger.id) : younger.steps ≤ older.steps := by
  have olderPace := (paced.inPace older (List.mem_append_right _ olderMem)).live
    (paced.tidy.live older olderMem)
  have youngerPace := (paced.inPace younger (List.mem_append_right _ youngerMem)).live
    (paced.tidy.live younger youngerMem)
  have births := paced.monotone _ _ ids (paced.id_lt (List.mem_append_right _ youngerMem))
  omega

/-- A round without a fault keeps the pace. Those who are forked off in it are born in it. -/
theorem played (paced : Paced birth rounds pool) (played : Played program config pool next)
    (ordered : next.Ordered) :
    Paced (laterBirth birth pool.ledger.nextId (rounds + 1)) (rounds + 1) next where
  tidy := played.tidy
  ordered := ordered
  birth_le id id_lt := by
    rw [laterBirth]
    split
    · rename_i earlier
      exact Nat.le_succ_of_le (paced.birth_le id earlier)
    · exact Nat.le_refl _
  monotone first second le second_lt := by
    by_cases earlier : second < pool.ledger.nextId
    · rw [laterBirth_of_lt earlier, laterBirth_of_lt (Nat.lt_of_le_of_lt le earlier)]
      exact paced.monotone first second le earlier
    · rw [laterBirth_of_le (Nat.le_of_not_lt earlier), laterBirth]
      split
      · rename_i firstEarlier
        exact Nat.le_succ_of_le (paced.birth_le first firstEarlier)
      · exact Nat.le_refl _
  inPace machine machineMem := by
    rcases played.become machine machineMem with retired | ⟨before, beforeMem, plays⟩ | isNew
    · have wasMem : machine ∈ pool.members := List.mem_append_left _ retired
      rw [laterBirth_of_lt (paced.id_lt wasMem)]
      exact (paced.inPace machine wasMem).of_halted (paced.tidy.halted machine retired)
    · have wasMem : before ∈ pool.members := List.mem_append_right _ beforeMem
      rw [plays.id_eq, laterBirth_of_lt (paced.id_lt wasMem)]
      exact (paced.inPace before wasMem).plays (paced.tidy.live before beforeMem) plays
    · rw [laterBirth_of_le isNew.id]
      exact .of_isNew isNew

/-- A round that does not end in a fault keeps the pace. -/
theorem sweep (paced : Paced birth rounds pool) {progressed : Bool}
    (swept : pool.sweep program config = (next, .ok progressed)) :
    Paced (laterBirth birth pool.ledger.nextId (rounds + 1)) (rounds + 1) next := by
  have ordered := (ordered_kept program config).sweep paced.ordered
  rw [swept] at ordered
  exact paced.played (played_sweep paced.tidy swept) ordered

end Paced

end ForkTape.Pool
