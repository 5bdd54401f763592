/-!
# Tapes

A tape is a row of byte cells, one of which is scanned. It is held as the cells before the
scanned one, the scanned cell, the cells after it that have been scanned already, and the
number of blank cells that have never been scanned. So a tape costs no more than the part of it
in use, however large it is, and a move is a local operation.

The first cell bounds the tape on the left. What a move past the last cell does is decided by a
`Tape.Overflow` policy.
-/

namespace ForkTape

/-- A row of byte cells with a scanned cell. -/
structure Tape where
  /-- The cells before the scanned one, from the first cell on. -/
  before : Array UInt8
  scanned : UInt8
  /-- The cells after the scanned one that have been scanned before. -/
  after : List UInt8
  /-- How many zero cells follow that have not been scanned yet. -/
  blank : Nat
  deriving DecidableEq, Repr

namespace Tape

/-- What a move past the last cell does. -/
inductive Overflow
  /-- It is a fault. -/
  | reject
  /-- The last cell stays scanned. -/
  | clamp
  /-- A zero cell is appended and scanned. -/
  | grow
  deriving DecidableEq, Repr, Inhabited

/-- What a move to the next cell has done. -/
inductive Advance
  | moved
  | grew
  | clamped
  | rejected
  deriving DecidableEq, Repr

/-- The zero tape with `capacity` cells, but at least one, its first cell scanned. -/
def ofCapacity (capacity : Nat) : Tape where
  before := #[]
  scanned := 0
  after := []
  blank := capacity - 1

/-- The index of the scanned cell. -/
def position (tape : Tape) : Nat := tape.before.size

/-- The number of cells. -/
def size (tape : Tape) : Nat :=
  tape.before.size + 1 + tape.after.length + tape.blank

/-- All cells, from the first to the last. -/
def cells (tape : Tape) : List UInt8 :=
  tape.before.toList ++ tape.scanned :: tape.after ++ List.replicate tape.blank 0

/-- Replace the scanned cell. -/
def write (byte : UInt8) (tape : Tape) : Tape :=
  { tape with scanned := byte }

/-- Add one to the scanned cell; 255 becomes 0. -/
def inc (tape : Tape) : Tape :=
  { tape with scanned := tape.scanned + 1 }

/-- Subtract one from the scanned cell; 0 becomes 255. -/
def dec (tape : Tape) : Tape :=
  { tape with scanned := tape.scanned - 1 }

/-- Scan the previous cell; the first cell stays scanned. -/
def left : Tape → Tape
  | ⟨before, scanned, after, blank⟩ =>
      match before.back? with
      | some previous => ⟨before.pop, previous, scanned :: after, blank⟩
      | none => ⟨before, scanned, after, blank⟩

/-- Scan the next cell; on the last cell the policy decides. -/
def right (policy : Overflow) : Tape → Tape × Advance
  | ⟨before, scanned, next :: after, blank⟩ => (⟨before.push scanned, next, after, blank⟩, .moved)
  | ⟨before, scanned, [], blank + 1⟩ => (⟨before.push scanned, 0, [], blank⟩, .moved)
  | ⟨before, scanned, [], 0⟩ =>
      match policy with
      | .reject => (⟨before, scanned, [], 0⟩, .rejected)
      | .clamp => (⟨before, scanned, [], 0⟩, .clamped)
      | .grow => (⟨before.push scanned, 0, [], 0⟩, .grew)

/-- The size of a tape is the number of its cells. -/
theorem length_cells (tape : Tape) : tape.cells.length = tape.size := by
  simp only [cells, size, List.length_append, List.length_cons, List.length_replicate,
    Array.length_toList]
  omega

/-- The scanned cell is one of the cells. -/
theorem position_lt_size (tape : Tape) : tape.position < tape.size := by
  simp only [position, size]
  omega

/-- The scanned cell is the cell at the position. -/
theorem getElem?_cells_position (tape : Tape) :
    tape.cells[tape.position]? = some tape.scanned := by
  simp [cells, position]

/-- A tape has at least one cell. -/
theorem size_ofCapacity (capacity : Nat) : (ofCapacity capacity).size = max 1 capacity := by
  simp only [ofCapacity, size, List.length_nil, Array.size_empty]
  omega

/-- A fresh tape is blank. -/
theorem cells_ofCapacity (capacity : Nat) :
    (ofCapacity capacity).cells = List.replicate (max 1 capacity) 0 := by
  have blank : max 1 capacity = capacity - 1 + 1 := by omega
  rw [blank, List.replicate_succ]
  simp [ofCapacity, cells]

/-- Writing changes the scanned cell and no other. -/
theorem cells_write (byte : UInt8) (tape : Tape) :
    (tape.write byte).cells = tape.cells.set tape.position byte := by
  simp [write, cells, position]

/-- Moving to the previous cell changes no cell. -/
theorem cells_left (tape : Tape) : tape.left.cells = tape.cells := by
  rcases tape with ⟨⟨before⟩, scanned, after, blank⟩
  rcases List.eq_nil_or_concat before with rfl | ⟨front, previous, rfl⟩
  · rfl
  · simp [left, cells]

/-- Moving to the previous cell stops at the first. -/
theorem position_left (tape : Tape) : tape.left.position = tape.position - 1 := by
  rcases tape with ⟨⟨before⟩, scanned, after, blank⟩
  rcases List.eq_nil_or_concat before with rfl | ⟨front, previous, rfl⟩
  · rfl
  · simp [left, position]

/-- Before the last cell, moving to the next cell changes no cell, whatever the policy. -/
theorem right_of_lt {tape : Tape} (room : tape.position + 1 < tape.size) (policy : Overflow) :
    (tape.right policy).2 = .moved ∧ (tape.right policy).1.cells = tape.cells ∧
      (tape.right policy).1.position = tape.position + 1 := by
  rcases tape with ⟨before, scanned, after, blank⟩
  cases after with
  | cons next after => simp [right, cells, position]
  | nil =>
      cases blank with
      | succ blank => simp [right, cells, position, List.replicate_succ]
      | zero => simp [position, size] at room

/-- On the last cell the policy decides: the tape stays, or a zero cell is appended. -/
theorem right_of_eq {tape : Tape} (last : tape.position + 1 = tape.size) (policy : Overflow) :
    match policy with
    | .reject => tape.right policy = (tape, .rejected)
    | .clamp => tape.right policy = (tape, .clamped)
    | .grow => (tape.right policy).2 = .grew ∧ (tape.right policy).1.cells = tape.cells ++ [0] ∧
        (tape.right policy).1.position = tape.position + 1 := by
  rcases tape with ⟨before, scanned, after, blank⟩
  simp only [position, size] at last
  obtain rfl : after = [] := List.eq_nil_of_length_eq_zero (by omega)
  obtain rfl : blank = 0 := by simp only [List.length_nil] at last; omega
  cases policy <;> simp [right, cells, position]

/-- A scanned cell that has no next one is the last. -/
theorem position_add_one_eq {tape : Tape} (full : ¬ tape.position + 1 < tape.size) :
    tape.position + 1 = tape.size :=
  Nat.le_antisymm tape.position_lt_size (Nat.le_of_not_lt full)

/-- Only the policy that rejects moves rejects one, and the tape stays as it was. -/
theorem of_right_rejected {policy : Overflow} {tape next : Tape}
    (moved : tape.right policy = (next, .rejected)) : policy = .reject ∧ next = tape := by
  by_cases room : tape.position + 1 < tape.size
  · have passed := (right_of_lt room policy).1
    rw [moved] at passed
    contradiction
  · have decided := right_of_eq (position_add_one_eq room) policy
    cases policy with
    | reject => exact ⟨rfl, congrArg Prod.fst (moved.symm.trans decided)⟩
    | clamp => cases moved.symm.trans decided
    | grow =>
        rw [moved] at decided
        cases decided.1

/-- A list of cells without the zeros at its end. -/
def dropTrailingZeros (cells : List UInt8) : List UInt8 :=
  (cells.reverse.dropWhile (· == 0)).reverse

/-- The cells up to the scanned one or to the last that is not zero, whichever is further
right. -/
def truncated (tape : Tape) : List UInt8 :=
  tape.before.toList ++ tape.scanned :: dropTrailingZeros tape.after

end Tape

end ForkTape
