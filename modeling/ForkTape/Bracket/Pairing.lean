import ForkTape.Instruction

/-!
# Bracket pairing

The pairing of a sequence of instructions has one slot for each instruction. The slot of a
bracket holds the index of its partner, every other slot is empty. It is built in one scan that
remembers the loops still open, innermost first.

A sequence of instructions is no program when its brackets do not pair up. The scan then reports
the first `]` that closes nothing, or else, at the end of the sequence, how many `[` are still
open and where the outermost of them stands.
-/

namespace ForkTape

/-! ## Unpaired brackets -/

/-- Why brackets do not pair up. -/
inductive BracketError
  /-- The `]` at `index` closes no loop. -/
  | unmatchedClose (index offset : Nat)
  /-- `count` loops are never closed; the outermost is opened at `firstIndex`. -/
  | unmatchedOpen (count firstIndex firstOffset : Nat)
  deriving DecidableEq, Repr

namespace BracketError

/-- The instruction that the error points at. -/
def index : BracketError → Nat
  | unmatchedClose index _ => index
  | unmatchedOpen _ firstIndex _ => firstIndex

/-- The text of the error. -/
def message : BracketError → String
  | unmatchedClose index offset =>
      s!"malformed program: unmatched ']' at instruction {index} (source offset {offset})"
  | unmatchedOpen count firstIndex firstOffset =>
      s!"malformed program: {count} unmatched '[' (first at instruction {firstIndex}"
        ++ s!", source offset {firstOffset})"

end BracketError

/-! ## Pairings -/

/-- The partner of every bracket, by index. -/
structure Pairing where
  slots : Array (Option Nat)
  deriving DecidableEq, Repr

namespace Pairing

/-- The number of slots. -/
def size (pairing : Pairing) : Nat := pairing.slots.size

/-- The index of the partner of the bracket at `index`; `none` where no bracket stands. -/
def partner? (pairing : Pairing) (index : Nat) : Option Nat :=
  pairing.slots[index]?.join

/-- All pairs `(open, close)` in the order of their opening brackets. -/
def pairs (pairing : Pairing) : List (Nat × Nat) :=
  pairing.slots.toList.zipIdx.filterMap fun (slot, index) =>
    slot.bind fun partner => if index < partner then some (index, partner) else none

/-- The source offset reported for an instruction. An instruction without a known offset is
reported at its index. -/
def reportedOffset (offsets : Array Nat) (index : Nat) : Nat :=
  offsets[index]?.getD index

/-- Continue the scan: `slots` belongs to the instructions read so far, and `pending` holds the
loops still open, innermost first. -/
def scan (offsets : Array Nat) (slots : Array (Option Nat)) (pending : List Nat) :
    List Instruction → Except BracketError Pairing
  | [] =>
      match pending.getLast? with
      | none => .ok ⟨slots⟩
      | some first =>
          .error (.unmatchedOpen pending.length first (reportedOffset offsets first))
  | .loopOpen :: rest => scan offsets (slots.push none) (slots.size :: pending) rest
  | .loopClose :: rest =>
      match pending with
      | [] => .error (.unmatchedClose slots.size (reportedOffset offsets slots.size))
      | opening :: pending =>
          scan offsets ((slots.setIfInBounds opening (some slots.size)).push (some opening))
            pending rest
  | _ :: rest => scan offsets (slots.push none) pending rest

/-- The pairing of a sequence of instructions. The offsets are used in errors only. -/
def ofInstructions (instructions : Array Instruction) (offsets : Array Nat) :
    Except BracketError Pairing :=
  scan offsets #[] [] instructions.toList

end Pairing

end ForkTape
