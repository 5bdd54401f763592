import ForkTape.Machine

/-!
# What executing one instruction can do

`Executes` lists the ways in which `Machine.exec` can end, each with the conditions under which
it does. Everything that is said of machines in a run is said case by case along this list.

`Machine.Grows` is what holds between a machine and the same machine later in a run: it keeps its
id and its parent, it only adds to its children and to its output, and once it has halted it does
not change any more.
-/

namespace ForkTape

/-- Whether the event is one that carrying out an instruction can cause. -/
def Event.isEffect : Event → Bool
  | wrote .. | tapeGrew .. | tapeClamped .. => true
  | _ => false

theorem Program.lt_size_of_instruction? {index : Nat} {instruction : Instruction}
    (program : Program) (found : program.instruction? index = some instruction) :
    index < program.size :=
  (Array.getElem?_eq_some_iff.mp found).1

namespace Machine

/-- Count one more executed instruction. -/
def count (machine : Machine) : Machine :=
  { machine with steps := machine.steps + 1 }

/-- Mark a machine as halted. -/
def halt (machine : Machine) : Machine :=
  { machine with halted := true }

/-- A machine that has halted stays as it is. -/
theorem halt_of_halted {machine : Machine} (halted : machine.halted = true) :
    machine.halt = machine := by
  simp [halt, ← halted]

/-- The ways in which executing one instruction can end. -/
inductive Executes (program : Program) (config : Config) (machine : Machine) :
    Turn Progress → Prop
  /-- A halted machine stays as it is. -/
  | rested (halted : machine.halted = true) :
      Executes program config machine ⟨machine, .ok .halted, none⟩
  /-- Behind the last instruction the machine halts. -/
  | ended (live : machine.halted = false) (missing : program.instruction? machine.ip = none) :
      Executes program config machine ⟨machine.halt, .ok .halted, none⟩
  /-- At its limit the machine faults. -/
  | limited {instruction : Instruction} {limit : Nat} (live : machine.halted = false)
      (found : program.instruction? machine.ip = some instruction)
      (reached : config.maxSteps.reached? machine.steps = some limit) :
      Executes program config machine ⟨machine, .error (.stepLimit machine.id limit), none⟩
  /-- A `fork` is counted and waits to be resolved. -/
  | reachedFork (live : machine.halted = false)
      (found : program.instruction? machine.ip = some .fork)
      (admitted : config.maxSteps.reached? machine.steps = none) :
      Executes program config machine ⟨machine.count, .ok .atFork, none⟩
  /-- A move past the last cell is counted and faults. -/
  | rejected (live : machine.halted = false)
      (found : program.instruction? machine.ip = some .right)
      (admitted : config.maxSteps.reached? machine.steps = none)
      (last : machine.tape.right config.overflow = (machine.tape, .rejected)) :
      Executes program config machine
        ⟨machine.count, .error (.tapeOverflow machine.id machine.tape.size), none⟩
  /-- Any other instruction is counted and carried out. -/
  | advanced {instruction : Instruction} {next : Machine} {event? : Option Event}
      (live : machine.halted = false)
      (found : program.instruction? machine.ip = some instruction)
      (plain : instruction ≠ .fork)
      (admitted : config.maxSteps.reached? machine.steps = none)
      (performed : perform program config.overflow instruction machine.count =
        ⟨next, .ok .advanced, event?⟩) :
      Executes program config machine ⟨next, .ok .advanced, event?⟩

variable {program : Program} {config : Config} {machine next : Machine}

/-- Carrying out an instruction advances the machine, unless the instruction is a `fork` or a
move that the tape rejects. -/
theorem perform_cases (program : Program) (overflow : Tape.Overflow) (instruction : Instruction)
    (machine : Machine) :
    (instruction = .fork ∧
      perform program overflow instruction machine = ⟨machine, .ok .atFork, none⟩) ∨
    (instruction = .right ∧ machine.tape.right overflow = (machine.tape, .rejected) ∧
      perform program overflow instruction machine =
        ⟨machine, .error (.tapeOverflow machine.id machine.tape.size), none⟩) ∨
    (instruction ≠ .fork ∧ ∃ next event?,
      perform program overflow instruction machine = ⟨next, .ok .advanced, event?⟩) := by
  cases instruction with
  | fork => exact .inl ⟨rfl, rfl⟩
  | right =>
      right
      rcases moved : machine.tape.right overflow with ⟨tape, result⟩
      cases result with
      | rejected =>
          obtain ⟨_, rfl⟩ := Tape.of_right_rejected moved
          exact .inl ⟨rfl, rfl, by simp [perform, moved]⟩
      | _ => exact .inr ⟨by simp, by simp [perform, moved]⟩
  | _ => exact .inr (.inr ⟨by simp, _, _, rfl⟩)

theorem exec_of_halted (halted : machine.halted = true) :
    machine.exec program config = ⟨machine, .ok .halted, none⟩ := by
  rw [exec, if_pos halted]

theorem exec_of_missing (live : machine.halted = false)
    (missing : program.instruction? machine.ip = none) :
    machine.exec program config = ⟨machine.halt, .ok .halted, none⟩ := by
  rw [exec, if_neg (Bool.eq_false_iff.mp live), missing]
  rfl

/-- A machine that is live and below its limit counts its instruction and carries it out. -/
theorem exec_eq_perform {instruction : Instruction} (live : machine.halted = false)
    (found : program.instruction? machine.ip = some instruction)
    (admitted : config.maxSteps.reached? machine.steps = none) :
    machine.exec program config =
      perform program config.overflow instruction machine.count := by
  rw [exec, if_neg (Bool.eq_false_iff.mp live), found, admitted]
  rfl

/-- Executing an instruction ends in one of the listed ways. -/
theorem executes (program : Program) (config : Config) (machine : Machine) :
    Executes program config machine (machine.exec program config) := by
  by_cases halted : machine.halted = true
  · rw [exec_of_halted halted]
    exact .rested halted
  · have live : machine.halted = false := Bool.eq_false_iff.mpr halted
    cases found : program.instruction? machine.ip with
    | none =>
        rw [exec_of_missing live found]
        exact .ended live found
    | some instruction =>
        cases reached : config.maxSteps.reached? machine.steps with
        | some limit =>
            rw [exec, if_neg halted, found, reached]
            exact .limited live found reached
        | none =>
            rw [exec_eq_perform live found reached]
            rcases perform_cases program config.overflow instruction machine.count with
              ⟨rfl, performed⟩ | ⟨rfl, last, performed⟩ | ⟨plain, next, event?, performed⟩
            · rw [performed]
              exact .reachedFork live found reached
            · rw [performed]
              exact .rejected live found reached last
            · rw [performed]
              exact .advanced live found plain reached performed

theorem executes_of_exec {turn : Turn Progress} (executed : machine.exec program config = turn) :
    Executes program config machine turn :=
  executed ▸ executes program config machine

/-- Whether the machine has an instruction to execute. -/
def pending (program : Program) (machine : Machine) : Bool :=
  !machine.halted && decide (machine.ip < program.size)

theorem live_of_pending (pending : machine.pending program = true) : machine.halted = false := by
  rw [Machine.pending, Bool.and_eq_true, Bool.not_eq_true'] at pending
  exact pending.1

theorem pending_of_found {instruction : Instruction} (live : machine.halted = false)
    (found : program.instruction? machine.ip = some instruction) :
    machine.pending program = true := by
  simp [pending, live, program.lt_size_of_instruction? found]

/-- Executing an instruction ends in halting exactly when there is none. -/
theorem Executes.pending_iff {turn : Turn Progress}
    (executed : Executes program config machine turn) :
    machine.pending program = true ↔ turn.outcome ≠ .ok .halted := by
  cases executed with
  | rested halted => simp [pending, halted]
  | ended live missing =>
      have behind : program.size ≤ machine.ip := Array.getElem?_eq_none_iff.mp missing
      simp [pending, Nat.not_lt.mpr behind]
  | limited live found reached => simp [pending, live, program.lt_size_of_instruction? found]
  | reachedFork live found admitted => simp [pending, live, program.lt_size_of_instruction? found]
  | rejected live found admitted last =>
      simp [pending, live, program.lt_size_of_instruction? found]
  | advanced live found plain admitted performed =>
      simp [pending, live, program.lt_size_of_instruction? found]

/-! ## What a machine keeps -/

/-- The place of a machine in the tree of machines. -/
structure Kin where
  id : Nat
  parent : Option Nat
  children : List Nat
  deriving DecidableEq, Repr

/-- The place of a machine in the tree of machines. -/
def kin (machine : Machine) : Kin :=
  ⟨machine.id, machine.parent, machine.children.toList⟩

/-- What holds between a machine and the same machine later in a run. -/
structure Grows (machine later : Machine) : Prop where
  id : later.id = machine.id
  parent : later.parent = machine.parent
  children : machine.children.toList <+: later.children.toList
  output : machine.output.toList <+: later.output.toList
  steps : machine.steps ≤ later.steps
  halted : machine.halted = true → later = machine

theorem Grows.refl (machine : Machine) : machine.Grows machine :=
  ⟨rfl, rfl, List.prefix_refl _, List.prefix_refl _, Nat.le_refl _, fun _ => rfl⟩

theorem Grows.trans {last : Machine} (first : machine.Grows next) (second : next.Grows last) :
    machine.Grows last where
  id := second.id.trans first.id
  parent := second.parent.trans first.parent
  children := first.children.trans second.children
  output := first.output.trans second.output
  steps := Nat.le_trans first.steps second.steps
  halted halted := by
    obtain rfl := first.halted halted
    exact second.halted halted

/-- Carrying out an instruction changes neither the machine's place in the tree nor its count of
instructions, and it keeps the output written before. -/
theorem perform_keeps (program : Program) (overflow : Tape.Overflow) (instruction : Instruction)
    (machine : Machine) :
    (perform program overflow instruction machine).machine.kin = machine.kin ∧
      (perform program overflow instruction machine).machine.halted = machine.halted ∧
      (perform program overflow instruction machine).machine.steps = machine.steps ∧
      machine.output.toList <+:
        (perform program overflow instruction machine).machine.output.toList := by
  cases instruction with
  | right =>
      rcases moved : machine.tape.right overflow with ⟨tape, result⟩
      cases result <;> simp [perform, moved, advance, kin]
  | _ => simp [perform, advance, kin]

/-- The events of `exec` are those that carrying out an instruction can cause. -/
theorem Executes.event_isEffect {turn : Turn Progress}
    (executed : Executes program config machine turn) {event : Event}
    (caused : turn.event? = some event) : event.isEffect = true := by
  cases executed with
  | @advanced instruction next event? live found plain admitted performed =>
      have caused : (perform program config.overflow instruction machine.count).event? =
          some event := by
        rw [performed]
        exact caused
      cases instruction with
      | right =>
          rcases moved : machine.count.tape.right config.overflow with ⟨tape, result⟩
          cases result <;> simp [perform, moved] at caused <;> subst caused <;> rfl
      | output =>
          cases caused
          rfl
      | _ => contradiction
  | _ => contradiction

/-- A machine that has executed an instruction goes on and has counted it. -/
theorem Executes.of_advanced {event? : Option Event}
    (executed : Executes program config machine ⟨next, .ok .advanced, event?⟩) :
    next.halted = false ∧ next.steps = machine.steps + 1 := by
  cases executed with
  | @advanced instruction _ _ live found plain admitted performed =>
      have kept := perform_keeps program config.overflow instruction machine.count
      rw [performed] at kept
      exact ⟨kept.2.1.trans live, kept.2.2.1⟩

/-- Executing an instruction keeps the machine's place in the tree. -/
theorem Executes.kin_eq {turn : Turn Progress} (executed : Executes program config machine turn) :
    turn.machine.kin = machine.kin := by
  cases executed with
  | @advanced instruction next event? live found plain admitted performed =>
      have kept := (perform_keeps program config.overflow instruction machine.count).1
      rw [performed] at kept
      exact kept
  | _ => rfl

theorem grows_count (live : machine.halted = false) : machine.Grows machine.count where
  id := rfl
  parent := rfl
  children := List.prefix_refl _
  output := List.prefix_refl _
  steps := Nat.le_succ _
  halted halted := by
    rw [live] at halted
    contradiction

/-- Executing an instruction lets the machine grow. -/
theorem Executes.grows {turn : Turn Progress} (executed : Executes program config machine turn) :
    machine.Grows turn.machine := by
  cases executed with
  | rested halted => exact Grows.refl machine
  | ended live missing =>
      refine ⟨rfl, rfl, List.prefix_refl _, List.prefix_refl _, Nat.le_refl _, ?_⟩
      intro halted
      rw [live] at halted
      contradiction
  | limited live found reached => exact Grows.refl machine
  | reachedFork live found admitted => exact grows_count live
  | rejected live found admitted last => exact grows_count live
  | @advanced instruction next event? live found plain admitted performed =>
      have kept := perform_keeps program config.overflow instruction machine.count
      rw [performed] at kept
      obtain ⟨kinEq, haltedEq, stepsEq, output⟩ := kept
      refine (grows_count live).trans ⟨congrArg Kin.id kinEq, congrArg Kin.parent kinEq, ?_,
        output, Nat.le_of_eq stepsEq.symm, ?_⟩
      · have childrenEq : next.children.toList = machine.count.children.toList :=
          congrArg Kin.children kinEq
        simp only [childrenEq, List.prefix_refl]
      · intro halted
        rw [count, live] at halted
        contradiction

end Machine

end ForkTape
