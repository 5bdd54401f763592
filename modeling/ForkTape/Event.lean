/-!
# Faults and events

A fault is what can go wrong while a program runs. A refused fork is the only fault that a run
survives; every other one ends it.

A run is accompanied by a log of what happens in it. An event says which machine it concerns
and what has been done; its level, its text and its named numbers are how a log shows it.
-/

namespace ForkTape

/-! ## Faults -/

/-- What went wrong in a run. Machines are named by their ids. -/
inductive Fault
  /-- The machine has executed as many instructions as one machine may. -/
  | stepLimit (machine limit : Nat)
  /-- All machines together have executed as many instructions as the run may. -/
  | globalStepLimit (limit : Nat)
  /-- The machine may not fork while `live` machines run under a budget of `budget`. -/
  | forkRefused (machine live budget : Nat)
  /-- The machine moved past the last of its `capacity` cells. -/
  | tapeOverflow (machine capacity : Nat)
  /-- No machine has this id. -/
  | unknownMachine (machine : Nat)
  deriving DecidableEq, Repr

namespace Fault

/-- Whether the fault ends the run. -/
def isFatal : Fault → Bool
  | forkRefused .. => false
  | _ => true

/-- The text of the fault. -/
def message : Fault → String
  | stepLimit machine limit =>
      s!"instance {machine}: execution step limit exceeded ({limit})"
  | globalStepLimit limit =>
      s!"global step limit exceeded ({limit}) - runaway fork tree or infinite loop"
  | forkRefused machine live budget =>
      s!"instance {machine}: fork refused, {live} live instances (budget {budget})"
  | tapeOverflow machine capacity =>
      s!"instance {machine}: data pointer moved past the tape end (capacity {capacity})"
  | unknownMachine machine =>
      s!"no registered instance with id {machine}"

/-- The text of a run that a fault ended after `totalSteps` instructions. -/
def abortMessage (totalSteps : Nat) : String :=
  s!"run aborted after {totalSteps} steps"

end Fault

/-! ## Events -/

/-- Something that happened in a run. Machines are named by their ids. -/
inductive Event
  /-- The machine wrote a byte. -/
  | wrote (machine : Nat) (byte : UInt8)
  /-- The machine's tape grew to `size` cells. -/
  | tapeGrew (machine size : Nat)
  /-- The machine, executing the instruction at `ip`, stayed on its last cell. -/
  | tapeClamped (machine ip last : Nat)
  /-- The machine, running alone, passed the `fork` at `ip`. -/
  | forkIgnored (machine ip : Nat)
  /-- The machine halted. -/
  | halted (machine steps : Nat)
  /-- A machine forked; `live` machines run after it. -/
  | forked (parent child live : Nat)
  /-- The machine was not allowed to fork. -/
  | forkRefused (machine live budget : Nat)
  deriving DecidableEq, Repr

namespace Event

/-- How noteworthy an event is. -/
inductive Level
  | trace
  | debug
  | warn
  deriving DecidableEq, Repr

/-- The level of an event. -/
def level : Event → Level
  | wrote .. => .trace
  | tapeGrew .. | halted .. | forked .. => .debug
  | tapeClamped .. | forkIgnored .. | forkRefused .. => .warn

/-- The text of an event. -/
def message : Event → String
  | wrote .. => "output"
  | tapeGrew .. => "tape grown"
  | tapeClamped _ _ last => s!"data pointer clamped at last cell ({last})"
  | forkIgnored .. => "FORK ignored in single-instance mode"
  | halted .. => "instance halted"
  | forked .. => "fork"
  | forkRefused machine live budget => (Fault.forkRefused machine live budget).message

/-- The numbers that go with the text, by name. -/
def fields : Event → List (String × Nat)
  | wrote machine byte => [("instance", machine), ("byte", byte.toNat)]
  | tapeGrew machine size => [("instance", machine), ("len", size)]
  | tapeClamped machine ip _ => [("instance", machine), ("ip", ip)]
  | forkIgnored machine ip => [("instance", machine), ("ip", ip)]
  | halted machine steps => [("instance", machine), ("steps", steps)]
  | forked parent child live => [("parent", parent), ("child", child), ("live", live)]
  | forkRefused .. => []

end Event

end ForkTape
