import ForkTape.Tape

/-!
# Tapes by index

What can be seen of a tape are its cells and the index of the scanned one (`Tape.row`). How a tape
is held tells besides which of its cells have been scanned before, and tapes that differ in nothing
else cannot be told apart: an operation does to the row what it does to the tape (`perform?_row`).

A tape is held around its scanned cell, which is therefore always there. A row has to check, when it
reads or replaces a cell, that there is one at the index. Operations on a row that begins with zeros
never fail in such a check (`performAll?_blank`).
-/

namespace ForkTape.Tape

/-! ## Operations -/

/-- What can be done to a tape. -/
inductive Operation
  | write (byte : UInt8)
  | inc
  | dec
  | left
  | right (policy : Overflow)
  deriving DecidableEq, Repr

/-- Carry out an operation. -/
def perform (tape : Tape) : Operation → Tape
  | .write byte => tape.write byte
  | .inc => tape.inc
  | .dec => tape.dec
  | .left => tape.left
  | .right policy => (tape.right policy).1

/-- The tape that operations have made of a zero tape. -/
def ofOperations (capacity : Nat) (operations : List Operation) : Tape :=
  operations.foldl perform (ofCapacity capacity)

/-! ## Rows of cells -/

/-- A row of cells and the index of the scanned one. Nothing says that there is such a cell. -/
structure Row where
  cells : List UInt8
  pointer : Nat
  deriving DecidableEq, Repr

/-- The cells of a tape and the index of the scanned one. -/
def row (tape : Tape) : Row := ⟨tape.cells, tape.position⟩

namespace Row

/-- A row of `capacity` zeros, but at least one, whose first cell is scanned. -/
def blank (capacity : Nat) : Row := ⟨List.replicate (max 1 capacity) 0, 0⟩

/-- The scanned cell, if it is there. -/
def scanned? (row : Row) : Option UInt8 := row.cells[row.pointer]?

/-- Replace the scanned cell by what `change` makes of it, if it is there. -/
def replace? (change : UInt8 → UInt8) (row : Row) : Option Row :=
  row.scanned?.map fun cell => { row with cells := row.cells.set row.pointer (change cell) }

/-- Scan the next cell; on the last cell the policy decides. -/
def right (policy : Overflow) (row : Row) : Row × Advance :=
  if row.pointer + 1 < row.cells.length then ({ row with pointer := row.pointer + 1 }, .moved)
  else
    match policy with
    | .reject => (row, .rejected)
    | .clamp => (row, .clamped)
    | .grow => (⟨row.cells ++ [0], row.pointer + 1⟩, .grew)

/-- Carry out an operation. It fails at a cell that is not there. -/
def perform? (row : Row) : Operation → Option Row
  | .write byte => row.replace? fun _ => byte
  | .inc => row.replace? (· + 1)
  | .dec => row.replace? (· - 1)
  | .left => some { row with pointer := row.pointer - 1 }
  | .right policy => some (row.right policy).1

/-- Carry out operations one after the other, as long as none fails. -/
def performAll? (operations : List Operation) (row : Row) : Option Row :=
  operations.foldlM perform? row

end Row

/-- The scanned cell of a tape is there. -/
theorem scanned?_row (tape : Tape) : tape.row.scanned? = some tape.scanned :=
  tape.getElem?_cells_position

/-- The scanned cell of a tape is there to be replaced. -/
theorem replace?_row (change : UInt8 → UInt8) (tape : Tape) :
    tape.row.replace? change = some (tape.write (change tape.scanned)).row := by
  rw [Row.replace?, scanned?_row, Option.map_some, row, row, cells_write]
  rfl

/-- A move to the next cell is decided by the index of the last. -/
theorem right_row (policy : Overflow) (tape : Tape) :
    tape.row.right policy = ((tape.right policy).1.row, (tape.right policy).2) := by
  simp only [Row.right, row, length_cells]
  by_cases room : tape.position + 1 < tape.size
  · obtain ⟨moved, cells, position⟩ := right_of_lt room policy
    rw [if_pos room, moved, cells, position]
  · have decided := right_of_eq (position_add_one_eq room) policy
    rw [if_neg room]
    cases policy with
    | reject | clamp => rw [decided]
    | grow =>
        obtain ⟨grew, cells, position⟩ := decided
        rw [grew, cells, position]

/-- An operation does the same to the row, and does not fail. -/
theorem perform?_row (tape : Tape) (operation : Operation) :
    tape.row.perform? operation = some (tape.perform operation).row := by
  cases operation with
  | write byte => exact replace?_row (fun _ => byte) tape
  | inc => exact replace?_row (· + 1) tape
  | dec => exact replace?_row (· - 1) tape
  | left => simp only [Row.perform?, perform, row, cells_left, position_left]
  | right policy => rw [Row.perform?, perform, right_row]

/-- Operations do the same to the row, and none fails. -/
theorem performAll?_row (operations : List Operation) (tape : Tape) :
    tape.row.performAll? operations = some (operations.foldl perform tape).row := by
  induction operations generalizing tape with
  | nil => rfl
  | cons operation operations ih =>
      rw [Row.performAll?, List.foldlM_cons, perform?_row]
      exact ih (tape.perform operation)

/-- What operations make of a zero row is what they make of a zero tape. -/
theorem performAll?_blank (capacity : Nat) (operations : List Operation) :
    (Row.blank capacity).performAll? operations = some (ofOperations capacity operations).row := by
  have start : Row.blank capacity = (ofCapacity capacity).row := by
    rw [row, cells_ofCapacity]
    rfl
  rw [start, performAll?_row, ofOperations]

/-! ## Tapes with the same row -/

section SameRow

variable {tape other : Tape} (same : tape.row = other.row)

include same

theorem scanned_of_row_eq : tape.scanned = other.scanned := by
  have found := scanned?_row tape
  rw [same, scanned?_row] at found
  exact (Option.some.inj found).symm

theorem right_of_row_eq (policy : Overflow) :
    (tape.right policy).1.row = (other.right policy).1.row ∧
      (tape.right policy).2 = (other.right policy).2 := by
  have moved := right_row policy tape
  rw [same, right_row] at moved
  exact Prod.mk.inj moved.symm

theorem perform_of_row_eq (operation : Operation) :
    (tape.perform operation).row = (other.perform operation).row := by
  have performed := perform?_row tape operation
  rw [same, perform?_row] at performed
  exact (Option.some.inj performed).symm

end SameRow

/-- A tape on which a cell has been scanned before is another tape, but with the same row. -/
example :
    ofOperations 2 [.right .reject, .left] ≠ ofCapacity 2 ∧
      (ofOperations 2 [.right .reject, .left]).row = (ofCapacity 2).row ∧
      ((ofOperations 2 [.right .reject, .left]).perform .inc).row =
        ((ofCapacity 2).perform .inc).row := by
  decide

end ForkTape.Tape
