import ForkTape.Proofs.Machine.Checked
import ForkTape.Proofs.Machine.Solo

/-!
# Calls on one machine

A machine may be asked to execute an instruction, to take a step or to run, again and again, also
after a fault and each time with another program. `Called` lists the machines that such calls
leave one after the other, those that a run passes on its way included.

No such call needs a cell that is not there or a jump that leads nowhere, and the tape has the cells
that its policy says (`Safe`). Where all calls are made with the same program, the instruction
pointer stays within it (`Machine.Within`).
-/

namespace ForkTape

/-- The tape `next` has as many cells as `tape`, or, where tapes grow, also those that it takes to
hold its scanned cell. -/
def Tape.Resized (overflow : Tape.Overflow) (tape next : Tape) : Prop :=
  next.size = if overflow = .grow then max tape.size (next.position + 1) else tape.size

section Resized

variable {overflow : Tape.Overflow} {tape next : Tape}

theorem Tape.resized_of_size_eq (same : next.size = tape.size) : Resized overflow tape next := by
  have inside := next.position_lt_size
  unfold Resized
  split <;> omega

theorem Tape.resized_left (overflow : Overflow) (tape : Tape) :
    Resized overflow tape tape.left := by
  apply resized_of_size_eq
  rw [← length_cells, cells_left, length_cells]

theorem Tape.resized_right (overflow : Overflow) (tape : Tape) :
    Resized overflow tape (tape.right overflow).1 := by
  by_cases room : tape.position + 1 < tape.size
  · apply resized_of_size_eq
    rw [← length_cells, (right_of_lt room overflow).2.1, length_cells]
  · have last := position_add_one_eq room
    have decided := right_of_eq last overflow
    cases overflow with
    | reject | clamp =>
        rw [decided]
        exact resized_of_size_eq rfl
    | grow =>
        obtain ⟨_, cells, position⟩ := decided
        rw [Resized, if_pos rfl, ← length_cells, cells, position, List.length_append, length_cells,
          last]
        exact (Nat.max_eq_right (Nat.le_succ _)).symm

end Resized

namespace Machine

variable {program : Program} {config : Config} {machine next : Machine}

/-! ## The tape -/

theorem resized_perform (program : Program) (overflow : Tape.Overflow) (instruction : Instruction)
    (machine : Machine) :
    machine.tape.Resized overflow
      (perform program overflow instruction machine).machine.tape := by
  cases instruction with
  | right =>
      have moves := machine.tape.resized_right overflow
      rcases moved : machine.tape.right overflow with ⟨tape, result⟩
      rw [moved] at moves
      cases result <;> simpa [perform, moved, advance] using moves
  | left => exact machine.tape.resized_left overflow
  | _ => exact Tape.resized_of_size_eq rfl

theorem resized_exec (program : Program) (config : Config) (machine : Machine) :
    machine.tape.Resized config.overflow (machine.exec program config).machine.tape := by
  have executed := executes program config machine
  generalize machine.exec program config = turn at executed
  cases executed with
  | @advanced instruction next event? live found plain admitted performed =>
      have resized := resized_perform program config.overflow instruction machine.count
      rwa [performed] at resized
  | _ => exact Tape.resized_of_size_eq rfl

/-- A step leaves what executing the instruction does, or, at a `fork`, the machine past it. -/
theorem step_cases (program : Program) (config : Config) (machine : Machine) :
    (machine.step program config).machine = (machine.exec program config).machine ∨
      (machine.exec program config).outcome = .ok .atFork ∧
        (machine.step program config).machine =
          (machine.exec program config).machine.passFork := by
  unfold step
  rcases machine.exec program config with ⟨next, outcome, event?⟩
  cases outcome with
  | error fault => exact .inl rfl
  | ok progress =>
      cases progress with
      | atFork => exact .inr ⟨rfl, rfl⟩
      | _ => exact .inl rfl

theorem resized_step (program : Program) (config : Config) (machine : Machine) :
    machine.tape.Resized config.overflow (machine.step program config).machine.tape := by
  have resized := resized_exec program config machine
  rcases step_cases program config machine with executed | ⟨_, passed⟩
  · rwa [executed]
  · rwa [passed]

/-! ## The instruction pointer -/

/-- The instruction pointer is at an instruction of the program or directly behind the last, and
there when the machine has halted. -/
structure Within (program : Program) (machine : Machine) : Prop where
  ip : machine.ip ≤ program.size
  halted : machine.halted = true → machine.ip = program.size

theorem Within.of_live (live : machine.halted = false) (ip : machine.ip ≤ program.size) :
    machine.Within program where
  ip := ip
  halted halted := by
    rw [live] at halted
    contradiction

/-- Carrying out an instruction leads to one of the program or directly behind the last. -/
theorem ip_perform_le {instruction : Instruction} (overflow : Tape.Overflow) (machine : Machine)
    (found : program.instruction? machine.ip = some instruction) :
    (perform program overflow instruction machine).machine.ip ≤ program.size := by
  have here : machine.ip < program.size := program.lt_size_of_instruction? found
  cases instruction with
  | right =>
      rcases moved : machine.tape.right overflow with ⟨tape, result⟩
      cases result <;> simp only [perform, moved, advance] <;> omega
  | loopOpen | loopClose =>
      obtain ⟨partner, other, paired, otherFound, _⟩ := Program.exists_partner? found rfl
      have there : partner < program.size := program.lt_size_of_instruction? otherFound
      simp only [perform, advance, paired, Option.getD_some]
      split <;> exact Nat.succ_le_of_lt ‹_›
  | fork => exact Nat.le_of_lt here
  | _ => exact here

theorem Within.exec (within : machine.Within program) (config : Config) :
    (machine.exec program config).machine.Within program := by
  have executed := executes program config machine
  generalize machine.exec program config = turn at executed
  cases executed with
  | rested halted => exact within
  | ended live missing =>
      have behind : program.size ≤ machine.ip := Array.getElem?_eq_none_iff.mp missing
      exact ⟨within.ip, fun _ => Nat.le_antisymm within.ip behind⟩
  | limited live found reached => exact within
  | reachedFork live found admitted => exact ⟨within.ip, within.halted⟩
  | rejected live found admitted last => exact ⟨within.ip, within.halted⟩
  | @advanced instruction next event? live found plain admitted performed =>
      have leads := ip_perform_le config.overflow machine.count found
      have kept := (perform_keeps program config.overflow instruction machine.count).2.1
      rw [performed] at leads kept
      exact .of_live (kept.trans live) leads

theorem Within.step (within : machine.Within program) (config : Config) :
    (machine.step program config).machine.Within program := by
  rcases step_cases program config machine with executed | ⟨atFork, passed⟩
  · exact executed ▸ within.exec config
  · rw [passed]
    have executed := executes program config machine
    generalize machine.exec program config = turn at atFork executed
    cases executed with
    | reachedFork live found admitted =>
        exact .of_live live (program.lt_size_of_instruction? found)
    | _ => cases atFork

/-! ## Calls -/

/-- The machines that a run of at most `fuel` turns passes on its way. -/
def passes (program : Program) (config : Config) : Nat → Machine → List Machine
  | 0, _ => []
  | fuel + 1, machine =>
      match machine.step program config with
      | ⟨next, .ok true, _⟩ => next :: passes program config fuel next
      | _ => []

/-- The machines that calls have left one after the other, the latest first, and the programs of
the calls. Every call may end in a fault. -/
inductive Called (config : Config) (input : Input) : List Program → List Machine → Prop
  | created : Called config input [] [Machine.initial config input]
  | exec {programs : List Program} {machine : Machine} {past : List Machine} (program : Program)
      (before : Called config input programs (machine :: past)) :
      Called config input (program :: programs)
        ((machine.exec program config).machine :: machine :: past)
  | step {programs : List Program} {machine : Machine} {past : List Machine} (program : Program)
      (before : Called config input programs (machine :: past)) :
      Called config input (program :: programs)
        ((machine.step program config).machine :: machine :: past)
  | run {programs : List Program} {machine : Machine} {past : List Machine} {program : Program}
      {fuel : Nat} {run : Run} (before : Called config input programs (machine :: past))
      (returned : machine.run program config fuel = some run) :
      Called config input (program :: programs)
        (run.machine :: ((machine.passes program config fuel).reverse ++ machine :: past))

/-- The greatest index of a scanned cell. -/
def peak : List Machine → Nat
  | [] => 0
  | machine :: past => max machine.tape.position (peak past)

/-- How many cells the tape has in the latest of the machines. -/
def cellCount (config : Config) (visited : List Machine) : Nat :=
  if config.overflow = .grow then max (max 1 config.tapeCapacity) (peak visited + 1)
  else max 1 config.tapeCapacity

/-- What calls with the given programs keep of the machines that they leave. -/
structure Sound (config : Config) (programs : List Program) (visited : List Machine) : Prop where
  size : ∀ machine past, (machine :: past) <:+ visited →
    machine.tape.size = cellCount config (machine :: past)
  within : ∀ program, (∀ called ∈ programs, called = program) →
    ∀ machine ∈ visited, machine.Within program

namespace Sound

variable {programs : List Program} {past visited : List Machine}

theorem created (config : Config) (input : Input) :
    Sound config [] [Machine.initial config input] where
  size machine past isSuffix := by
    obtain ⟨rfl, rfl⟩ := List.cons.inj (isSuffix.eq_of_length_le (by simp))
    have size : (Machine.initial config input).tape.size = max 1 config.tapeCapacity :=
      Tape.size_ofCapacity config.tapeCapacity
    have position : (Machine.initial config input).tape.position = 0 := rfl
    rw [size, cellCount, peak, peak, position]
    split
    · omega
    · rfl
  within program _ machine machineMem := by
    rw [List.mem_singleton.mp machineMem]
    exact .of_live rfl (Nat.zero_le _)

/-- Another call does not change what has been left before. -/
theorem call (sound : Sound config programs visited) (program : Program) :
    Sound config (program :: programs) visited :=
  ⟨sound.size, fun other all =>
    sound.within other fun called isCalled => all called (List.mem_cons_of_mem _ isCalled)⟩

/-- One more machine is left by a call. -/
theorem push (sound : Sound config programs (machine :: past)) (called : program ∈ programs)
    (resized : machine.tape.Resized config.overflow next.tape)
    (within : machine.Within program → next.Within program) :
    Sound config programs (next :: machine :: past) where
  size later earlier isSuffix := by
    rcases List.suffix_cons_iff.mp isSuffix with latest | before
    · obtain ⟨rfl, rfl⟩ := List.cons.inj latest
      have size := sound.size machine past (List.suffix_refl _)
      rw [Tape.Resized, size] at resized
      by_cases grows : config.overflow = .grow
      · simp only [cellCount, grows, if_true, peak] at resized ⊢
        omega
      · simpa only [cellCount, grows, if_false] using resized
    · exact sound.size later earlier before
  within other all later laterMem := by
    have before := sound.within other all
    rcases List.mem_cons.mp laterMem with rfl | laterMem
    · obtain rfl := all program called
      exact within (before machine List.mem_cons_self)
    · exact before later laterMem

theorem exec (sound : Sound config programs (machine :: past)) (called : program ∈ programs) :
    Sound config programs ((machine.exec program config).machine :: machine :: past) :=
  sound.push called (resized_exec program config machine) (·.exec config)

theorem step (sound : Sound config programs (machine :: past)) (called : program ∈ programs) :
    Sound config programs ((machine.step program config).machine :: machine :: past) :=
  sound.push called (resized_step program config machine) (·.step config)

/-- A run is a sequence of steps. -/
theorem run (sound : Sound config programs (machine :: past)) (called : program ∈ programs)
    {fuel : Nat} {log : Array Event} {run : Run}
    (returned : iterate (runTurn program config) fuel (machine, log) = some run) :
    Sound config programs
      (run.machine :: ((machine.passes program config fuel).reverse ++ machine :: past)) := by
  induction fuel generalizing machine past log with
  | zero => simp [iterate] at returned
  | succ fuel ih =>
      have after := sound.step called
      rcases stepped : machine.step program config with ⟨next, outcome, event?⟩
      rw [stepped] at after
      rw [iterate, runTurn, stepped] at returned
      rw [passes, stepped]
      cases outcome with
      | error fault =>
          cases returned
          exact after
      | ok continues =>
          cases continues with
          | false =>
              cases returned
              exact after
          | true =>
              rw [List.reverse_cons, List.append_assoc]
              exact ih after returned

end Sound

variable {input : Input} {programs : List Program} {visited : List Machine}

theorem sound_of_called (called : Called config input programs visited) :
    Sound config programs visited := by
  induction called with
  | created => exact .created config input
  | exec program _ before => exact (before.call program).exec List.mem_cons_self
  | step program _ before => exact (before.call program).step List.mem_cons_self
  | run _ returned before => exact (before.call _).run List.mem_cons_self returned

/-- A machine that has halted stays as it is, whatever is asked of it. -/
structure Rests (config : Config) (machine : Machine) : Prop where
  exec : ∀ program, machine.exec program config = ⟨machine, .ok .halted, none⟩
  step : ∀ program, machine.step program config = ⟨machine, .ok false, none⟩
  run : ∀ program fuel, machine.run program config (fuel + 1) = some ⟨machine, .ok (), #[]⟩

theorem rests_of_halted (halted : machine.halted = true) : machine.Rests config where
  exec program := exec_of_halted halted
  step program := by rw [Machine.step, exec_of_halted halted]
  run program fuel := by rw [Machine.run, iterate, runTurn, Machine.step, exec_of_halted halted]

/-- Nothing can go wrong with a machine that calls have left after the machines of `past`, whatever
it is asked next. -/
structure Safe (config : Config) (past : List Machine) (machine : Machine) : Prop where
  nonempty : machine.tape.cells ≠ []
  inside : machine.tape.position < machine.tape.cells.length
  fixed : config.overflow ≠ .grow → machine.tape.cells.length = max 1 config.tapeCapacity
  grown : config.overflow = .grow → machine.tape.cells.length =
    max (max 1 config.tapeCapacity) (peak (machine :: past) + 1)
  /-- The next instruction works on cells by index, of which none is out of range, and jumps
  nowhere but behind a partner. -/
  checked : ∀ (program : Program) (instruction : Instruction), machine.halted = false →
    program.instruction? machine.ip = some instruction →
    config.maxSteps.reached? machine.steps = none →
    machine.frame.perform? program config.overflow machine.input.read.1 instruction =
      some (machine.exec program config).machine.frame
  /-- A bracket has a partner. -/
  paired : ∀ (program : Program) (instruction : Instruction),
    program.instruction? machine.ip = some instruction → instruction.isBracket = true →
    ∃ partner, program.partner? machine.ip = some partner
  rests : machine.halted = true → machine.Rests config

/-- Whatever is asked of a machine, with whatever programs, nothing goes wrong with any machine
that is left or passed on the way. If all programs are the same, the instruction pointer never
exceeds the number of its instructions, and is equal to it where the machine has halted. -/
theorem safe_of_called (called : Called config input programs visited) :
    (∀ machine past, (machine :: past) <:+ visited → Safe config past machine) ∧
    ∀ program, (∀ called ∈ programs, called = program) →
      ∀ machine ∈ visited, machine.ip ≤ program.size ∧
        (machine.halted = true → machine.ip = program.size) := by
  have sound := sound_of_called called
  constructor
  · intro machine past isSuffix
    have size : machine.tape.cells.length = cellCount config (machine :: past) :=
      machine.tape.length_cells.trans (sound.size machine past isSuffix)
    have inside : machine.tape.position < machine.tape.cells.length :=
      machine.tape.length_cells.symm ▸ machine.tape.position_lt_size
    constructor
    · exact List.ne_nil_of_length_pos (Nat.zero_lt_of_lt inside)
    · exact inside
    · intro fixed
      rw [size, cellCount, if_neg fixed]
    · intro grows
      rw [size, cellCount, if_pos grows]
    · intro program instruction live found admitted
      exact perform?_frame_exec live found admitted
    · intro program instruction found isBracket
      obtain ⟨partner, _, paired, _⟩ := Program.exists_partner? found isBracket
      exact ⟨partner, paired⟩
    · exact rests_of_halted
  · intro program all machine machineMem
    have within := sound.within program all machine machineMem
    exact ⟨within.ip, within.halted⟩

/-- The program of two moves to the next cell. -/
def rights : Program where
  instructions := #[.right, .right]
  offsets := #[0, 1]
  pairing := ⟨#[none, none]⟩
  paired := rfl

/-- The program of a loop with nothing in it. -/
def emptyLoop : Program where
  instructions := #[.loopOpen, .loopClose]
  offsets := #[0, 1]
  pairing := ⟨#[some 1, some 0]⟩
  paired := rfl

/-- A run ends in a move past the second of two cells. From there a step and a run with another
program go on, in the middle of its loop, and come to its end. -/
theorem rights_emptyLoop_safe :
    (∃ visited, Called { tapeCapacity := 2 } ⟨[]⟩ [emptyLoop, emptyLoop, rights] visited ∧
      visited.map Machine.ip = [2, 2, 1, 1, 0] ∧
      ∀ machine past, (machine :: past) <:+ visited →
        Safe { tapeCapacity := 2 } past machine) ∧
    ∃ visited, Called { overflow := .grow, tapeCapacity := 2 } ⟨[]⟩ [rights, rights] visited ∧
      visited.map (·.tape.size) = [3, 3, 3, 2, 2] ∧
      ∀ machine ∈ visited, machine.ip ≤ rights.size ∧
        (machine.halted = true → machine.ip = rights.size) := by
  constructor
  · have start : Called { tapeCapacity := 2 } ⟨[]⟩ [] _ := .created
    have faulted := start.run (show Machine.run rights _ 2 _ = some _ from rfl)
    have called := (faulted.step emptyLoop).run (show Machine.run emptyLoop _ 1 _ = some _ from rfl)
    exact ⟨_, called, rfl, (safe_of_called called).1⟩
  · have start : Called { overflow := .grow, tapeCapacity := 2 } ⟨[]⟩ [] _ := .created
    have halted := start.run (show Machine.run rights _ 3 _ = some _ from rfl)
    have called := halted.exec rights
    exact ⟨_, called, rfl, (safe_of_called called).2 rights (by simp)⟩

end Machine

end ForkTape
