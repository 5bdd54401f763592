/-!
# Instructions

A program is a sequence of nine instructions. Eight of them act on one running machine: they
move along its tape, change the scanned cell, read, write, or bound a loop. The ninth, `fork`,
asks for a second machine that continues beside the first.

Every instruction but `fork` is spelled by one character. `fork` has a spelling only relative
to a `ForkSpelling` (see `ForkTape.Source`); its `symbol` is the keyword form.
-/

namespace ForkTape

/-- One instruction of the tape language. -/
inductive Instruction
  /-- Move to the next cell. -/
  | right
  /-- Move to the previous cell. -/
  | left
  /-- Add one to the scanned cell. -/
  | inc
  /-- Subtract one from the scanned cell. -/
  | dec
  /-- Write the scanned cell to the output. -/
  | output
  /-- Replace the scanned cell by the next byte of input. -/
  | input
  /-- Enter the loop, or pass it when the scanned cell is zero. -/
  | loopOpen
  /-- Return into the loop unless the scanned cell is zero. -/
  | loopClose
  /-- Continue as two machines. -/
  | fork
  deriving DecidableEq, Repr, Inhabited

namespace Instruction

/-- The instruction that a single character spells. No character spells `fork`. -/
def ofChar? : Char → Option Instruction
  | '>' => some right
  | '<' => some left
  | '+' => some inc
  | '-' => some dec
  | '.' => some output
  | ',' => some input
  | '[' => some loopOpen
  | ']' => some loopClose
  | _ => none

/-- The text that stands for an instruction in listings. -/
def symbol : Instruction → String
  | right => ">"
  | left => "<"
  | inc => "+"
  | dec => "-"
  | output => "."
  | input => ","
  | loopOpen => "["
  | loopClose => "]"
  | fork => "FORK"

/-- The two instructions that bound a loop. -/
def isBracket : Instruction → Bool
  | loopOpen | loopClose => true
  | _ => false

/-- Every instruction but `fork` is read back from the one character of its symbol. -/
theorem ofChar?_symbol {instruction : Instruction} (single : instruction ≠ fork) :
    ∃ char, instruction.symbol = String.singleton char ∧ ofChar? char = some instruction := by
  cases instruction with
  | right => exact ⟨'>', rfl, rfl⟩
  | left => exact ⟨'<', rfl, rfl⟩
  | inc => exact ⟨'+', rfl, rfl⟩
  | dec => exact ⟨'-', rfl, rfl⟩
  | output => exact ⟨'.', rfl, rfl⟩
  | input => exact ⟨',', rfl, rfl⟩
  | loopOpen => exact ⟨'[', rfl, rfl⟩
  | loopClose => exact ⟨']', rfl, rfl⟩
  | fork => exact absurd rfl single

end Instruction

end ForkTape
