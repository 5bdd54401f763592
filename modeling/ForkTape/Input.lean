/-!
# Input

The input of a machine is the row of bytes it has not read yet. When a machine forks, that row
is cut in two: the parent keeps the front and the child takes the rest, so no byte can be read
twice. Where the cut falls is decided by an `Input.Split` policy.
-/

namespace ForkTape

/-- The bytes a machine has not read yet, the next one first. -/
structure Input where
  unread : List UInt8
  deriving DecidableEq, Repr, Inhabited

namespace Input

/-- How much of the unread input a forking machine keeps. -/
inductive Split
  /-- Half of it, rounded up; but a single byte goes to the child. -/
  | halve
  /-- All of it. -/
  | parentKeeps
  /-- Nothing. -/
  | childTakes
  deriving DecidableEq, Repr, Inhabited

/-- How many of `count` unread bytes the parent keeps. -/
def Split.kept (split : Split) (count : Nat) : Nat :=
  match split with
  | .halve => if count ≤ 1 then 0 else (count + 1) / 2
  | .parentKeeps => count
  | .childTakes => 0

/-- The next byte and the input after it. The end of the input reads as zero, forever. -/
def read : Input → UInt8 × Input
  | ⟨[]⟩ => (0, ⟨[]⟩)
  | ⟨byte :: rest⟩ => (byte, ⟨rest⟩)

/-- The parent's share and the child's share of the unread input. -/
def split (input : Input) (policy : Split) : Input × Input :=
  let kept := policy.kept input.unread.length
  (⟨input.unread.take kept⟩, ⟨input.unread.drop kept⟩)

/-- A split loses nothing and keeps the order. -/
theorem split_append (input : Input) (policy : Split) :
    (input.split policy).1.unread ++ (input.split policy).2.unread = input.unread :=
  List.take_append_drop _ _

end Input

end ForkTape
