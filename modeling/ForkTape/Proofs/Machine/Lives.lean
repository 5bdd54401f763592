import ForkTape.Proofs.Machine.Exec
import ForkTape.Proofs.Tape.Row

/-!
# The life of a machine

A machine that is executed by itself, one instruction after the other, goes through a sequence of
states that only depends on what becomes of the `fork`s it comes to. `Lives` tells the states and
the verdicts on those `fork`s together.

Two machines that begin alike and meet the same verdicts are alike in every turn
(`Lives.alike`). Their ids and their parents do not matter, and of their tapes only the cells and
the index of the scanned one do.
-/

namespace ForkTape

/-- What becomes of a `fork`. -/
inductive Verdict
  | refused
  /-- It is carried out, and the new machine gets the id `child`. -/
  | forked (child : Nat)
  deriving DecidableEq, Repr

namespace Machine

/-- What executing an instruction makes of a machine, when its `fork` is resolved by the verdict,
if it has come to one. -/
def Turn.settle (split : Input.Split) (turn : Turn Progress) : Option Verdict → Machine
  | none => turn.machine
  | some .refused => turn.machine.passFork
  | some (.forked child) => (turn.machine.fork child split).1

/-- Executed by itself, a machine that begins as `start` comes to its turns in `states`, one after
the other, meets `verdicts` on its `fork`s and then is `machine`. -/
inductive Lives (program : Program) (config : Config) (split : Input.Split) (start : Machine) :
    List Verdict → List Machine → Machine → Prop
  | begins : Lives program config split start [] [] start
  | turn {verdicts : List Verdict} {states : List Machine} {machine : Machine}
      {verdict? : Option Verdict}
      (before : Lives program config split start verdicts states machine)
      (due : verdict?.isSome = true ↔ (machine.exec program config).outcome = .ok .atFork) :
      Lives program config split start (verdicts ++ verdict?.toList) (states ++ [machine])
        ((machine.exec program config).settle split verdict?)

/-- Two machines differ at most in their places in the tree of machines and in how they hold their
tapes. -/
structure Alike (machine other : Machine) : Prop where
  cells : machine.tape.cells = other.tape.cells
  position : machine.tape.position = other.tape.position
  ip : machine.ip = other.ip
  input : machine.input = other.input
  output : machine.output = other.output
  children : machine.children = other.children
  halted : machine.halted = other.halted
  steps : machine.steps = other.steps

/-! ## What machines that are alike do -/

variable {program : Program} {config : Config} {split : Input.Split}

namespace Alike

variable {machine other : Machine}

/-- Machines that are alike have the same row of cells. -/
theorem row (alike : machine.Alike other) : machine.tape.row = other.tape.row := by
  rw [Tape.row, alike.cells, alike.position, ← Tape.row]

/-- Who is alike is the same machine but for its id, its parent and how it holds its tape. -/
theorem exists_eq (alike : machine.Alike other) :
    ∃ id parent tape, machine.tape.row = tape.row ∧
      other = { machine with id := id, parent := parent, tape := tape } := by
  refine ⟨other.id, other.parent, other.tape, alike.row, ?_⟩
  rw [alike.ip, alike.input, alike.output, alike.children, alike.halted, alike.steps]

/-- Machines stay alike when their tapes are replaced by tapes with the same row. -/
theorem withTape (alike : machine.Alike other) {tape otherTape : Tape}
    (same : tape.row = otherTape.row) :
    Alike { machine with tape := tape } { other with tape := otherTape } where
  cells := congrArg Tape.Row.cells same
  position := congrArg Tape.Row.pointer same
  ip := alike.ip
  input := alike.input
  output := alike.output
  children := alike.children
  halted := alike.halted
  steps := alike.steps

/-- An operation on their tapes keeps machines alike. -/
theorem operate (alike : machine.Alike other) (operation : Tape.Operation) :
    Alike { machine with tape := machine.tape.perform operation }
      { other with tape := other.tape.perform operation } :=
  alike.withTape (Tape.perform_of_row_eq alike.row operation)

theorem advance (alike : machine.Alike other) : machine.advance.Alike other.advance :=
  { alike with ip := congrArg (· + 1) alike.ip }

theorem count (alike : machine.Alike other) : machine.count.Alike other.count :=
  { alike with steps := congrArg (· + 1) alike.steps }

/-- Carrying out an instruction keeps machines alike, and leaves both at a `fork` or neither. -/
theorem perform (alike : machine.Alike other) (program : Program) (overflow : Tape.Overflow)
    (instruction : Instruction) :
    (Machine.perform program overflow instruction machine).machine.Alike
        (Machine.perform program overflow instruction other).machine ∧
      ((Machine.perform program overflow instruction machine).outcome = .ok .atFork ↔
        (Machine.perform program overflow instruction other).outcome = .ok .atFork) := by
  obtain ⟨id, parent, tape, same, rfl⟩ := alike.exists_eq
  have scanned := Tape.scanned_of_row_eq same
  cases instruction with
  | right =>
      obtain ⟨row, result⟩ := Tape.right_of_row_eq same overflow
      have moved := alike.withTape row
      simp only [Machine.perform, result]
      cases (tape.right overflow).2 with
      | moved | grew | clamped => exact ⟨moved.advance, by simp⟩
      | rejected => exact ⟨moved, by simp⟩
  | left => exact ⟨(alike.operate .left).advance, Iff.rfl⟩
  | inc => exact ⟨(alike.operate .inc).advance, Iff.rfl⟩
  | dec => exact ⟨(alike.operate .dec).advance, Iff.rfl⟩
  | output =>
      have output := congrArg machine.output.push scanned
      exact ⟨{ alike.advance with output := output }, Iff.rfl⟩
  | input =>
      have written := alike.operate (.write machine.input.read.1)
      exact ⟨{ written.advance with input := rfl }, Iff.rfl⟩
  | loopOpen | loopClose =>
      simp only [Machine.perform, scanned]
      exact ⟨{ alike with ip := rfl }, by simp⟩
  | fork => exact ⟨alike, Iff.rfl⟩

/-- Executing keeps machines alike, and leaves both at a `fork` or neither. -/
theorem exec (alike : machine.Alike other) (program : Program) (config : Config) :
    (machine.exec program config).machine.Alike (other.exec program config).machine ∧
      ((machine.exec program config).outcome = .ok .atFork ↔
        (other.exec program config).outcome = .ok .atFork) := by
  obtain ⟨id, parent, tape, same, rfl⟩ := alike.exists_eq
  simp only [Machine.exec]
  split
  · exact ⟨alike, Iff.rfl⟩
  split
  · exact ⟨{ alike with halted := rfl }, Iff.rfl⟩
  split
  · exact ⟨alike, by simp⟩
  · exact alike.count.perform program config.overflow _

theorem passFork (alike : machine.Alike other) : machine.passFork.Alike other.passFork :=
  alike.advance

theorem fork (alike : machine.Alike other) (child : Nat) (split : Input.Split) :
    (machine.fork child split).1.Alike (other.fork child split).1 :=
  { (alike.operate (.write (forkMarker child))).advance with
    input := congrArg (fun input => (Input.split input split).1) alike.input
    children := congrArg (Array.push · child) alike.children }

/-- A turn that ends in the same verdict keeps machines alike. -/
theorem settle (alike : machine.Alike other) (verdict? : Option Verdict) :
    ((machine.exec program config).settle split verdict?).Alike
      ((other.exec program config).settle split verdict?) := by
  have executed := (alike.exec program config).1
  cases verdict? with
  | none => exact executed
  | some verdict =>
      cases verdict with
      | refused => exact executed.passFork
      | forked child => exact executed.fork child split

end Alike

/-! ## Lives compared -/

namespace Lives

variable {start : Machine} {verdicts : List Verdict} {states : List Machine} {machine : Machine}

/-- Every state of a life is what an earlier part of it has led to. -/
theorem of_getElem? (lives : Lives program config split start verdicts states machine)
    {index : Nat} {state : Machine} (found : (states ++ [machine])[index]? = some state) :
    ∃ earlier, earlier <+: verdicts ∧
      Lives program config split start earlier (states.take index) state := by
  induction lives with
  | begins =>
      obtain ⟨within, rfl⟩ := List.getElem?_eq_some_iff.mp found
      obtain rfl : index = 0 := Nat.lt_one_iff.mp within
      exact ⟨[], List.prefix_refl _, .begins⟩
  | @turn verdicts states machine verdict? before due ih =>
      rcases Nat.lt_or_ge index (states ++ [machine]).length with within | beyond
      · rw [List.getElem?_append_left within] at found
        obtain ⟨earlier, isEarlier, lives⟩ := ih found
        refine ⟨earlier, isEarlier.trans (List.prefix_append _ _), ?_⟩
        rw [List.take_append_of_le_length]
        · exact lives
        · rw [List.length_append, List.length_singleton] at within
          exact Nat.le_of_lt_succ within
      · rw [List.getElem?_append_right beyond] at found
        obtain ⟨within, rfl⟩ := List.getElem?_eq_some_iff.mp found
        rw [List.getElem_singleton, List.take_of_length_le beyond]
        exact ⟨_, List.prefix_refl _, .turn before due⟩

/-- Lives of as many turns that begin alike and meet verdicts of which some are the first of the
others meet the same verdicts and lead to machines that are alike. -/
theorem alike_of_length_eq {otherStart other : Machine} {otherVerdicts : List Verdict}
    {otherStates : List Machine} (alike : start.Alike otherStart)
    (first : Lives program config split start verdicts states machine)
    (second : Lives program config split otherStart otherVerdicts otherStates other)
    (lengths : states.length = otherStates.length)
    (same : verdicts <+: otherVerdicts ∨ otherVerdicts <+: verdicts) :
    verdicts = otherVerdicts ∧ machine.Alike other := by
  induction first generalizing other otherVerdicts otherStates with
  | begins =>
      cases second with
      | begins => exact ⟨rfl, alike⟩
      | turn before due => simp at lengths
  | @turn verdicts states machine verdict? before due ih =>
      cases second with
      | begins => simp at lengths
      | @turn otherVerdicts otherStates other otherVerdict? otherBefore otherDue =>
          have shorter : states.length = otherStates.length := by simpa using lengths
          have earlier : verdicts <+: otherVerdicts ∨ otherVerdicts <+: verdicts := by
            rcases same with same | same
            · exact List.prefix_or_prefix_of_prefix ((List.prefix_append _ _).trans same)
                (List.prefix_append _ _)
            · exact List.prefix_or_prefix_of_prefix (List.prefix_append _ _)
                ((List.prefix_append _ _).trans same)
          obtain ⟨rfl, machinesAlike⟩ := ih otherBefore shorter earlier
          -- Both have come to a `fork` or neither has, so one verdict begins with the other.
          have both : verdict?.isSome = otherVerdict?.isSome := by
            rw [Bool.eq_iff_iff, due, otherDue]
            exact (machinesAlike.exec program config).2
          have verdict_eq : verdict? = otherVerdict? := by
            rw [List.prefix_append_right_inj, List.prefix_append_right_inj] at same
            cases verdict? <;> cases otherVerdict? <;> simp_all [eq_comm]
          subst verdict_eq
          exact ⟨rfl, machinesAlike.settle verdict?⟩

/-- Machines that begin alike and meet the same verdicts, as far as both have met any, are alike in
every turn that both have come to. -/
theorem alike {otherStart other : Machine} {otherVerdicts : List Verdict}
    {otherStates : List Machine} (alike : start.Alike otherStart)
    (first : Lives program config split start verdicts states machine)
    (second : Lives program config split otherStart otherVerdicts otherStates other)
    (same : verdicts <+: otherVerdicts ∨ otherVerdicts <+: verdicts) {index : Nat}
    {state otherState : Machine} (found : (states ++ [machine])[index]? = some state)
    (otherFound : (otherStates ++ [other])[index]? = some otherState) :
    state.Alike otherState := by
  obtain ⟨earlier, isEarlier, lives⟩ := first.of_getElem? found
  obtain ⟨otherEarlier, otherIsEarlier, otherLives⟩ := second.of_getElem? otherFound
  have within := (List.getElem?_eq_some_iff.mp found).1
  have otherWithin := (List.getElem?_eq_some_iff.mp otherFound).1
  rw [List.length_append, List.length_singleton] at within otherWithin
  have lengths : (states.take index).length = (otherStates.take index).length := by
    rw [List.length_take_of_le (Nat.le_of_lt_succ within),
      List.length_take_of_le (Nat.le_of_lt_succ otherWithin)]
  have comparable : earlier <+: otherEarlier ∨ otherEarlier <+: earlier := by
    rcases same with same | same
    · exact List.prefix_or_prefix_of_prefix (isEarlier.trans same) otherIsEarlier
    · exact List.prefix_or_prefix_of_prefix isEarlier (otherIsEarlier.trans same)
  exact (lives.alike_of_length_eq alike otherLives lengths comparable).2

end Lives

end Machine

end ForkTape
