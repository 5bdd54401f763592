import ForkTape.Proofs.Machine.Exec
import ForkTape.Proofs.Program.WithoutForks
import ForkTape.Proofs.Tape.Row

/-!
# Instructions on cells by index

A tape is held around its scanned cell, and a bracket without a partner would lead on as if it were
its own. So executing an instruction never fails, but neither does it show that nothing could.

Here an instruction works on a row of cells by index instead (`Tape.Row`), every access is checked,
and a jump needs a partner to go to (`Frame.perform?`). It fails nowhere, and does what it does on
the tape (`perform?_frame`).
-/

namespace ForkTape.Machine

/-- What instructions work on: a row of cells and the index of the next instruction. Nothing says
that the scanned cell and the instruction are there. -/
structure Frame where
  row : Tape.Row
  ip : Nat
  deriving DecidableEq, Repr

/-- What the instructions of a machine work on. -/
def frame (machine : Machine) : Frame := ⟨machine.tape.row, machine.ip⟩

namespace Frame

/-- Go on to the next instruction. -/
def advance (frame : Frame) : Frame := { frame with ip := frame.ip + 1 }

/-- Carry out an operation on the row and go on. It fails where the operation does. -/
def operate? (operation : Tape.Operation) (frame : Frame) : Option Frame :=
  (frame.row.perform? operation).map fun row => advance { frame with row := row }

/-- Go on behind the partner of the bracket, if it has one. -/
def jump? (program : Program) (frame : Frame) : Option Frame :=
  (program.partner? frame.ip).map fun partner => { frame with ip := partner + 1 }

/-- Scan the next cell and go on, but not from a move that is rejected. -/
def right (overflow : Tape.Overflow) (frame : Frame) : Frame :=
  match frame.row.right overflow with
  | (row, .rejected) => { frame with row := row }
  | (row, _) => advance { frame with row := row }

/-- Carry out `instruction`, with `byte` as the next byte of the input. It fails at a cell that is
not there and at a jump that leads nowhere. -/
def perform? (program : Program) (overflow : Tape.Overflow) (byte : UInt8)
    (instruction : Instruction) (frame : Frame) : Option Frame :=
  match instruction with
  | .right => some (frame.right overflow)
  | .left => frame.operate? .left
  | .inc => frame.operate? .inc
  | .dec => frame.operate? .dec
  | .output => frame.row.scanned?.map fun _ => frame.advance
  | .input => frame.operate? (.write byte)
  | .loopOpen =>
      frame.row.scanned?.bind fun cell =>
        if cell = 0 then frame.jump? program else some frame.advance
  | .loopClose =>
      frame.row.scanned?.bind fun cell =>
        if cell = 0 then some frame.advance else frame.jump? program
  | .fork => some frame

end Frame

variable {program : Program} {config : Config} {machine : Machine} {instruction : Instruction}

/-- An operation on a tape does the same to the row, and does not fail. -/
theorem operate?_frame (operation : Tape.Operation) (machine : Machine) :
    machine.frame.operate? operation =
      some (advance { machine with tape := machine.tape.perform operation }).frame := by
  rw [Frame.operate?, frame, Tape.perform?_row]
  rfl

/-- The bracket at the instruction pointer has a partner. -/
theorem jump?_frame (found : program.instruction? machine.ip = some instruction)
    (isBracket : instruction.isBracket = true) :
    machine.frame.jump? program =
      some (advance { machine with
        ip := (program.partner? machine.ip).getD machine.ip }).frame := by
  obtain ⟨partner, _, paired, _⟩ := Program.exists_partner? found isBracket
  rw [Frame.jump?, frame, paired]
  rfl

/-- A move to the next cell does the same to the row. -/
theorem right_frame (overflow : Tape.Overflow) (machine : Machine) :
    machine.frame.right overflow = (perform program overflow .right machine).machine.frame := by
  rw [Frame.right, frame, Tape.right_row]
  rcases moved : machine.tape.right overflow with ⟨tape, result⟩
  simp only [perform, moved]
  cases result <;> rfl

/-- An instruction that stands at the instruction pointer does the same on cells by index, and
fails nowhere. -/
theorem perform?_frame (overflow : Tape.Overflow) (machine : Machine)
    (found : program.instruction? machine.ip = some instruction) :
    machine.frame.perform? program overflow machine.input.read.1 instruction =
      some (perform program overflow instruction machine).machine.frame := by
  have scanned : machine.frame.row.scanned? = some machine.tape.scanned :=
    machine.tape.scanned?_row
  cases instruction with
  | right => rw [Frame.perform?, right_frame]
  | left => exact operate?_frame .left machine
  | inc => exact operate?_frame .inc machine
  | dec => exact operate?_frame .dec machine
  | output =>
      rw [Frame.perform?, scanned]
      rfl
  | input => exact operate?_frame (.write machine.input.read.1) machine
  | loopOpen | loopClose =>
      rw [Frame.perform?, scanned, Option.bind_some, jump?_frame found rfl, perform]
      split <;> rfl
  | fork => rfl

/-- Executing an instruction fails nowhere on cells by index. -/
theorem perform?_frame_exec (live : machine.halted = false)
    (found : program.instruction? machine.ip = some instruction)
    (admitted : config.maxSteps.reached? machine.steps = none) :
    machine.frame.perform? program config.overflow machine.input.read.1 instruction =
      some (machine.exec program config).machine.frame := by
  rw [exec_eq_perform live found admitted]
  exact perform?_frame config.overflow machine.count found

end ForkTape.Machine
