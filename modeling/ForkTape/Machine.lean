import ForkTape.Event
import ForkTape.Input
import ForkTape.Program
import ForkTape.Tape

/-!
# Machines

A machine is one run of a program in progress: a tape, an instruction pointer, the input not
read yet and the output written so far. Machines that forked know each other by id only.

`Machine.exec` executes one instruction. It executes no `fork`: a second machine is not its
affair. It stops on the `fork` instead, and whoever runs the machine then either lets it fork
(`Machine.fork`) or moves it on (`Machine.passFork`). A machine that runs alone has nobody to hand
a `fork` to: it passes every `fork` it meets, and the log says so (`Machine.run`).
-/

namespace ForkTape

/-!
## Limits

A limit bounds how many instructions may be executed. It is tested before an instruction, so a
count that has reached the limit admits no further instruction.
-/

/-- A bound on a count of instructions; `none` is no bound. -/
abbrev Limit := Option Nat

/-- The bound that a count has reached, if it has. -/
def Limit.reached? (limit : Limit) (count : Nat) : Option Nat :=
  limit.filter fun bound => bound ≤ count

/-- A bound is reached when the count is at least as large. -/
theorem Limit.reached?_eq_some_iff {limit : Limit} {count bound : Nat} :
    limit.reached? count = some bound ↔ limit = some bound ∧ bound ≤ count := by
  simp [Limit.reached?, Option.filter_eq_some_iff]

/-- A count that has not reached the bound is below it. -/
theorem Limit.lt_of_reached?_eq_none {count bound : Nat}
    (admitted : Limit.reached? (some bound) count = none) : count < bound := by
  apply Nat.lt_of_not_le
  intro reached
  rw [reached?_eq_some_iff.mpr ⟨rfl, reached⟩] at admitted
  contradiction

/-- A bound that has been reached stays reached. -/
theorem Limit.reached?_mono {limit : Limit} {count later bound : Nat}
    (reached : limit.reached? count = some bound) (le : count ≤ later) :
    limit.reached? later = some bound := by
  obtain ⟨same, within⟩ := reached?_eq_some_iff.mp reached
  exact reached?_eq_some_iff.mpr ⟨same, Nat.le_trans within le⟩

/-- Without a limit no count is too large. -/
theorem Limit.reached?_none (count : Nat) : Limit.reached? none count = none := rfl

/-!
## Iteration

A loop whose length is not known in advance is run for a given number of turns. Out of turns
it gives nothing; an answer once found is the answer for every larger number of turns
(`iterate_mono`), so the number never decides what the answer is.
-/

/-- Take turns from `state` on until one gives an answer, but at most `fuel` of them. -/
def iterate (turn : σ → σ ⊕ α) : Nat → σ → Option α
  | 0, _ => none
  | fuel + 1, state =>
      match turn state with
      | .inl next => iterate turn fuel next
      | .inr answer => some answer

/-- More turns keep the answer. -/
theorem iterate_mono {turn : σ → σ ⊕ α} {fuel : Nat} {state : σ} {answer : α}
    (answered : iterate turn fuel state = some answer) (more : Nat) :
    iterate turn (fuel + more) state = some answer := by
  induction fuel generalizing state with
  | zero => simp [iterate] at answered
  | succ fuel ih =>
      rw [Nat.add_right_comm, iterate]
      rw [iterate] at answered
      split at answered
      · rename_i next turned
        exact ih answered
      · exact answered

/-! ## Single machines -/

/-- One run of a program in progress. -/
structure Machine where
  id : Nat
  parent : Option Nat
  /-- The machines forked off, in order. -/
  children : Array Nat
  tape : Tape
  /-- The index of the next instruction. -/
  ip : Nat
  input : Input
  output : Array UInt8
  halted : Bool
  /-- The number of instructions executed. -/
  steps : Nat
  deriving DecidableEq, Repr

namespace Machine

/-- How a machine is run. -/
structure Config where
  tapeCapacity : Nat := 30000
  /-- How many instructions one machine may execute. -/
  maxSteps : Limit := some 1000000
  overflow : Tape.Overflow := .reject
  deriving DecidableEq, Repr, Inhabited

/-- The first machine of a run. -/
def initial (config : Config) (input : Input) : Machine where
  id := 0
  parent := none
  children := #[]
  tape := Tape.ofCapacity config.tapeCapacity
  ip := 0
  input := input
  output := #[]
  halted := false
  steps := 0

/-- How far executing one instruction has led. -/
inductive Progress
  /-- The instruction has been executed. -/
  | advanced
  /-- The instruction is a `fork`, which waits to be resolved. -/
  | atFork
  /-- There was no instruction left to execute. -/
  | halted
  deriving DecidableEq, Repr

/-- What a turn leaves: the machine after it, how the turn ended, and the event it caused. -/
structure Turn (α : Type) where
  machine : Machine
  outcome : Except Fault α
  event? : Option Event := none

/-- Go on to the next instruction. -/
def advance (machine : Machine) : Machine :=
  { machine with ip := machine.ip + 1 }

/-- Carry out `instruction`, which stands at the instruction pointer of a machine that has
counted it already. -/
def perform (program : Program) (overflow : Tape.Overflow) (instruction : Instruction)
    (machine : Machine) : Turn Progress :=
  match instruction with
  | .right =>
      let (tape, result) := machine.tape.right overflow
      let machine := { machine with tape := tape }
      match result with
      | .moved => ⟨machine.advance, .ok .advanced, none⟩
      | .grew => ⟨machine.advance, .ok .advanced, some (.tapeGrew machine.id machine.tape.size)⟩
      | .clamped =>
          ⟨machine.advance, .ok .advanced,
            some (.tapeClamped machine.id machine.ip (machine.tape.size - 1))⟩
      | .rejected => ⟨machine, .error (.tapeOverflow machine.id machine.tape.size), none⟩
  | .left => ⟨advance { machine with tape := machine.tape.left }, .ok .advanced, none⟩
  | .inc => ⟨advance { machine with tape := machine.tape.inc }, .ok .advanced, none⟩
  | .dec => ⟨advance { machine with tape := machine.tape.dec }, .ok .advanced, none⟩
  | .output =>
      let byte := machine.tape.scanned
      ⟨advance { machine with output := machine.output.push byte }, .ok .advanced,
        some (.wrote machine.id byte)⟩
  | .input =>
      let (byte, input) := machine.input.read
      ⟨advance { machine with tape := machine.tape.write byte, input := input }, .ok .advanced,
        none⟩
  | .loopOpen =>
      let target :=
        if machine.tape.scanned = 0 then (program.partner? machine.ip).getD machine.ip
        else machine.ip
      ⟨advance { machine with ip := target }, .ok .advanced, none⟩
  | .loopClose =>
      let target :=
        if machine.tape.scanned = 0 then machine.ip
        else (program.partner? machine.ip).getD machine.ip
      ⟨advance { machine with ip := target }, .ok .advanced, none⟩
  | .fork => ⟨machine, .ok .atFork, none⟩

/-- Execute the instruction at the instruction pointer. Behind the last instruction the machine
halts, which costs nothing. At its limit it faults and does not change. A rejected move is
counted although it faults. A `fork` is counted and left to be resolved. -/
def exec (program : Program) (config : Config) (machine : Machine) : Turn Progress :=
  if machine.halted then ⟨machine, .ok .halted, none⟩
  else
    match program.instruction? machine.ip with
    | none => ⟨{ machine with halted := true }, .ok .halted, none⟩
    | some instruction =>
        match config.maxSteps.reached? machine.steps with
        | some limit => ⟨machine, .error (.stepLimit machine.id limit), none⟩
        | none =>
            perform program config.overflow instruction
              { machine with steps := machine.steps + 1 }

/-- Move past a `fork` that is not carried out. -/
def passFork (machine : Machine) : Machine := machine.advance

/-- The byte a machine finds in its scanned cell after forking off the machine `child`. It runs
through 1, …, 255 and is never 0, which is what the child finds. -/
def forkMarker (child : Nat) : UInt8 :=
  UInt8.ofNat ((child - 1) % 255 + 1)

/-- The marker tells the parent from the child, which finds a zero. -/
theorem forkMarker_ne_zero (child : Nat) : forkMarker child ≠ 0 := by
  intro isZero
  have value : (forkMarker child).toNat = (child - 1) % 255 + 1 := by
    rw [forkMarker, UInt8.toNat_ofNat']
    omega
  rw [isZero] at value
  simp at value

/-- Carry out a `fork`: the machine and its new child, both past the instruction. The child is a
copy with its own share of the input, a zero in its scanned cell, no output and no history. -/
def fork (child : Nat) (split : Input.Split) : Machine → Machine × Machine
  | ⟨id, parent, children, tape, ip, input, output, halted, steps⟩ =>
      let (kept, taken) := input.split split
      ({ id, parent
         children := children.push child
         tape := tape.write (forkMarker child)
         ip := ip + 1
         input := kept
         output, halted, steps },
       { id := child
         parent := some id
         children := #[]
         tape := tape.write 0
         ip := ip + 1
         input := taken
         output := #[]
         halted := false
         steps := 0 })

/-! ## Running alone -/

/-- Execute one instruction alone: `true` while there was one to execute, `false` after. -/
def step (program : Program) (config : Config) (machine : Machine) : Turn Bool :=
  match machine.exec program config with
  | ⟨machine, .ok .advanced, event?⟩ => ⟨machine, .ok true, event?⟩
  | ⟨machine, .ok .atFork, _⟩ =>
      let event := Event.forkIgnored machine.id machine.ip
      ⟨machine.passFork, .ok true, some event⟩
  | ⟨machine, .ok .halted, event?⟩ => ⟨machine, .ok false, event?⟩
  | ⟨machine, .error fault, event?⟩ => ⟨machine, .error fault, event?⟩

/-- What a run leaves: the machine, how the run ended, and the log. -/
structure Run where
  machine : Machine
  outcome : Except Fault Unit
  log : Array Event

/-- One turn of a run: the machine and the log after it, or the end of the run. -/
def runTurn (program : Program) (config : Config) :
    Machine × Array Event → (Machine × Array Event) ⊕ Run
  | (machine, log) =>
      match machine.step program config with
      | ⟨machine, outcome, event?⟩ =>
          let log :=
            match event? with
            | some event => log.push event
            | none => log
          match outcome with
          | .ok true => .inl (machine, log)
          | .ok false => .inr ⟨machine, .ok (), log⟩
          | .error fault => .inr ⟨machine, .error fault, log⟩

/-- Run until the machine halts or faults, for at most `fuel` turns. A fault leaves the machine
as it was when it occurred. -/
def run (program : Program) (config : Config) (fuel : Nat) (machine : Machine) : Option Run :=
  iterate (runTurn program config) fuel (machine, #[])

end Machine

end ForkTape
