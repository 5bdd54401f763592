import ForkTape.Machine
import ForkTape.Proofs.Block

/-!
# The meaning of a block

Read as a tree, a program needs no instruction pointer. It acts on a store, a loop runs its body
as long as the scanned cell is not zero, and a `fork` does nothing. The meaning of a block relates
the store before a run to what the run costs and to how it ends; a run that never ends is related
to nothing.

The cost counts every action, every arrival at a loop, entered or not, and every completed pass
through a loop's body.
-/

namespace ForkTape

/-- What a program acts on. -/
structure Store where
  tape : Tape
  /-- The input not read yet. -/
  input : Input
  /-- The output written so far. -/
  output : Array UInt8
  deriving DecidableEq, Repr

/-- Carry out an action. There is no store after a move that the tape rejects. -/
def Store.act (overflow : Tape.Overflow) (action : Action) (store : Store) : Option Store :=
  match action.val with
  | .right =>
      match store.tape.right overflow with
      | (_, .rejected) => none
      | (tape, _) => some { store with tape := tape }
  | .left => some { store with tape := store.tape.left }
  | .inc => some { store with tape := store.tape.inc }
  | .dec => some { store with tape := store.tape.dec }
  | .output => some { store with output := store.output.push store.tape.scanned }
  | .input =>
      let (byte, input) := store.input.read
      some { store with tape := store.tape.write byte, input := input }
  | .fork | .loopOpen | .loopClose => some store

/-- The store of a machine. -/
def Machine.store (machine : Machine) : Store :=
  ⟨machine.tape, machine.input, machine.output⟩

namespace Block

/-- How a run ends, and the store it leaves. -/
inductive Ending
  | finished (store : Store)
  /-- The tape rejected a move to the next cell. -/
  | rejected (store : Store)
  deriving DecidableEq, Repr

/-- The runs from a store: what they cost and how they end. -/
abbrev Meaning := Store → Nat → Ending → Prop

namespace Meaning

/-- To do nothing. -/
inductive Idle : Meaning
  | intro {store : Store} : Idle store 0 (.finished store)

/-- To carry out an action. -/
inductive Acts (overflow : Tape.Overflow) (action : Action) : Meaning
  | carriedOut {store next : Store} (acted : store.act overflow action = some next) :
      Acts overflow action store 1 (.finished next)
  | rejected {store : Store} (refused : store.act overflow action = none) :
      Acts overflow action store 1 (.rejected store)

/-- To do one thing after another. -/
inductive Then (first next : Meaning) : Meaning
  | both {store middle : Store} {cost more : Nat} {ending : Ending}
      (firstRun : first store cost (.finished middle)) (nextRun : next middle more ending) :
      Then first next store (cost + more) ending
  | rejected {store last : Store} {cost : Nat}
      (firstRun : first store cost (.rejected last)) :
      Then first next store cost (.rejected last)

/-- To pass through the body of a loop as long as the scanned cell is not zero. -/
inductive Passes (body : Meaning) : Meaning
  | ended {store : Store} (zero : store.tape.scanned = 0) : Passes body store 0 (.finished store)
  | pass {store middle : Store} {cost more : Nat} {ending : Ending}
      (nonzero : store.tape.scanned ≠ 0) (bodyRun : body store cost (.finished middle))
      (passes : Passes body middle more ending) :
      Passes body store (cost + 1 + more) ending
  | rejected {store last : Store} {cost : Nat} (nonzero : store.tape.scanned ≠ 0)
      (bodyRun : body store cost (.rejected last)) :
      Passes body store cost (.rejected last)

/-- To arrive at a loop, which is then entered or not. -/
inductive Loops (body : Meaning) : Meaning
  | arrive {store : Store} {cost : Nat} {ending : Ending}
      (passes : Passes body store cost ending) : Loops body store (1 + cost) ending

end Meaning

/-- The runs of a block. -/
def Runs (overflow : Tape.Overflow) : Block → Meaning
  | done => Meaning.Idle
  | act action rest => Meaning.Then (Meaning.Acts overflow action) (rest.Runs overflow)
  | loop body rest => Meaning.Then (Meaning.Loops (body.Runs overflow)) (rest.Runs overflow)

end Block

end ForkTape
