import ForkTape.Proofs.Machine.Exec
import ForkTape.Proofs.Machine.Mirror

/-!
# Room on the tape

Cells that have not been scanned yet are blank, so how many of them a tape has left shows only
when a machine moves past the last of them. A machine that never has to, because its tape grows or
because every such move would be a fault, is mirrored by one with other room on its tape, as long
as that one never has to either (`mirrors_roomy`).
-/

namespace ForkTape

namespace Tape

/-- The tape `mirror` holds what `tape` holds, and has room for every move that `tape` has room
for: both tapes grow, or moves that `tape` has no room for are faults. -/
structure Roomy (overflow other : Overflow) (tape mirror : Tape) : Prop where
  before : mirror.before = tape.before
  scanned : mirror.scanned = tape.scanned
  after : mirror.after = tape.after
  room : (overflow = .grow ∧ other = .grow) ∨ (overflow = .reject ∧ tape.blank ≤ mirror.blank)

/-- Blank tapes of `otherCapacity` cells have, under the policy `other`, room for every move that
blank tapes of `capacity` cells have room for. -/
inductive Suffices (capacity otherCapacity : Nat) : Overflow → Overflow → Prop
  | grow : Suffices capacity otherCapacity .grow .grow
  | reject (other : Overflow) (within : max 1 capacity ≤ max 1 otherCapacity) :
      Suffices capacity otherCapacity .reject other

namespace Roomy

variable {overflow other : Overflow} {tape mirror : Tape}

theorem ofCapacity {capacity otherCapacity : Nat}
    (room : Suffices capacity otherCapacity overflow other) :
    Roomy overflow other (Tape.ofCapacity capacity) (Tape.ofCapacity otherCapacity) where
  before := rfl
  scanned := rfl
  after := rfl
  room := by
    cases room with
    | grow => exact .inl ⟨rfl, rfl⟩
    | reject _ within =>
        refine .inr ⟨rfl, ?_⟩
        simp only [Tape.ofCapacity]
        omega

theorem write (roomy : Roomy overflow other tape mirror) (byte : UInt8) :
    Roomy overflow other (tape.write byte) (mirror.write byte) :=
  ⟨roomy.before, rfl, roomy.after, roomy.room⟩

theorem inc (roomy : Roomy overflow other tape mirror) :
    Roomy overflow other tape.inc mirror.inc :=
  ⟨roomy.before, congrArg (· + 1) roomy.scanned, roomy.after, roomy.room⟩

theorem dec (roomy : Roomy overflow other tape mirror) :
    Roomy overflow other tape.dec mirror.dec :=
  ⟨roomy.before, congrArg (· - 1) roomy.scanned, roomy.after, roomy.room⟩

theorem left (roomy : Roomy overflow other tape mirror) :
    Roomy overflow other tape.left mirror.left := by
  rcases tape with ⟨before, scanned, after, blank⟩
  rcases mirror with ⟨mirrorBefore, mirrorScanned, mirrorAfter, mirrorBlank⟩
  obtain ⟨rfl, rfl, rfl, room⟩ := roomy
  simp only [Tape.left]
  cases mirrorBefore.back? with
  | none => exact ⟨rfl, rfl, rfl, room⟩
  | some previous => exact ⟨rfl, rfl, rfl, room⟩

/-- A move is rejected, or it is mirrored. -/
theorem right (roomy : Roomy overflow other tape mirror) :
    (overflow = .reject ∧ (tape.right overflow).2 = .rejected) ∨
      ((tape.right overflow).2 ≠ .rejected ∧ (mirror.right other).2 ≠ .rejected ∧
        Roomy overflow other (tape.right overflow).1 (mirror.right other).1) := by
  rcases tape with ⟨before, scanned, after, blank⟩
  rcases mirror with ⟨mirrorBefore, mirrorScanned, mirrorAfter, mirrorBlank⟩
  obtain ⟨rfl, rfl, rfl, room⟩ := roomy
  cases mirrorAfter with
  | cons next after => exact .inr ⟨by simp [Tape.right], by simp [Tape.right], rfl, rfl, rfl, room⟩
  | nil =>
      rcases room with ⟨rfl, rfl⟩ | ⟨rfl, within⟩
      · right
        cases blank <;> cases mirrorBlank <;>
          exact ⟨by simp [Tape.right], by simp [Tape.right], rfl, rfl, rfl, .inl ⟨rfl, rfl⟩⟩
      · cases blank with
        | zero => exact .inl ⟨rfl, rfl⟩
        | succ blank =>
            cases mirrorBlank with
            | zero => exact absurd within (Nat.not_succ_le_zero blank)
            | succ mirrorBlank =>
                exact .inr ⟨by simp [Tape.right], by simp [Tape.right], rfl, rfl, rfl,
                  .inr ⟨rfl, Nat.le_of_succ_le_succ within⟩⟩

end Roomy

end Tape

namespace Machine

/-- The configuration with another policy for moves past the last cell, and another number of cells
to begin with. -/
def Config.withTape (overflow : Tape.Overflow) (capacity : Nat) (config : Config) : Config :=
  { config with overflow := overflow, tapeCapacity := capacity }

/-- The machine `mirror` is `machine` with other room on its tape. -/
structure Roomy (overflow other : Tape.Overflow) (machine mirror : Machine) : Prop where
  tape : machine.tape.Roomy overflow other mirror.tape
  rest : mirror = { machine with tape := mirror.tape }

/-- The fault of a move past the last cell. -/
def Outruns (overflow : Tape.Overflow) (fault : Fault) : Prop :=
  overflow = .reject ∧ ∃ machine capacity, fault = .tapeOverflow machine capacity

variable {program : Program} {overflow other : Tape.Overflow} {machine mirror : Machine}

theorem Roomy.exists_tape (related : Roomy overflow other machine mirror) :
    ∃ tape, machine.tape.Roomy overflow other tape ∧ mirror = { machine with tape := tape } :=
  ⟨mirror.tape, related.tape, related.rest⟩

/-- Carrying out an instruction is mirrored, unless it is a move that is rejected. -/
theorem Roomy.perform (related : Roomy overflow other machine mirror) (instruction : Instruction) :
    (∃ fault, (Machine.perform program overflow instruction machine).outcome = .error fault ∧
        Outruns overflow fault) ∨
      ((Machine.perform program other instruction mirror).outcome =
          (Machine.perform program overflow instruction machine).outcome ∧
        Roomy overflow other (Machine.perform program overflow instruction machine).machine
          (Machine.perform program other instruction mirror).machine) := by
  obtain ⟨tape, roomy, rfl⟩ := related.exists_tape
  have scanned : tape.scanned = machine.tape.scanned := roomy.scanned
  cases instruction with
  | right =>
      rcases moved : machine.tape.right overflow with ⟨next, result⟩
      rcases mirrorMoved : tape.right other with ⟨mirrorNext, mirrorResult⟩
      have moves := roomy.right
      simp only [moved, mirrorMoved] at moves
      rcases moves with ⟨rejects, rfl⟩ | ⟨accepted, mirrorAccepted, nextRoomy⟩
      · refine .inl ⟨.tapeOverflow machine.id next.size, ?_, rejects, _, _, rfl⟩
        simp only [Machine.perform, moved]
      · right
        simp only [Machine.perform, moved, mirrorMoved]
        cases result <;> cases mirrorResult <;>
          first
          | contradiction
          | exact ⟨rfl, nextRoomy, rfl⟩
  | left => exact .inr ⟨rfl, roomy.left, rfl⟩
  | inc => exact .inr ⟨rfl, roomy.inc, rfl⟩
  | dec => exact .inr ⟨rfl, roomy.dec, rfl⟩
  | output =>
      right
      simp only [Machine.perform, scanned]
      exact ⟨trivial, roomy, rfl⟩
  | input => exact .inr ⟨rfl, roomy.write _, rfl⟩
  | loopOpen =>
      right
      simp only [Machine.perform, scanned]
      exact ⟨trivial, roomy, rfl⟩
  | loopClose =>
      right
      simp only [Machine.perform, scanned]
      exact ⟨trivial, roomy, rfl⟩
  | fork => exact .inr ⟨rfl, roomy, rfl⟩

/-- Machines with other room on their tapes mirror each other. -/
theorem mirrors_roomy (program : Program) (split : Input.Split) (config : Config)
    (overflow other : Tape.Overflow) (capacity otherCapacity : Nat) :
    Mirrors program split (config.withTape overflow capacity)
      (config.withTape other otherCapacity) (Roomy overflow other) (Outruns overflow) where
  result {machine mirror} related := by
    obtain ⟨tape, ⟨before, scanned, after, _⟩, rfl⟩ := related.exists_tape
    simp only [Machine.result, Tape.position, Tape.truncated, before, scanned, after]
  ip {machine mirror} related := by
    obtain ⟨tape, _, rfl⟩ := related.exists_tape
    rfl
  exec {machine mirror} related := by
    obtain ⟨tape, roomy, rfl⟩ := related.exists_tape
    have maxSteps (overflow : Tape.Overflow) (capacity : Nat) :
        (config.withTape overflow capacity).maxSteps = config.maxSteps := rfl
    simp only [Machine.exec, maxSteps]
    split
    · exact .inr ⟨rfl, roomy, rfl⟩
    split
    · exact .inr ⟨rfl, roomy, rfl⟩
    split
    · exact .inr ⟨rfl, roomy, rfl⟩
    · exact Roomy.perform ⟨roomy, rfl⟩ _
  passFork {machine mirror} related := by
    obtain ⟨tape, roomy, rfl⟩ := related.exists_tape
    exact ⟨roomy, rfl⟩
  fork {machine mirror} related child := by
    obtain ⟨tape, roomy, rfl⟩ := related.exists_tape
    exact ⟨⟨roomy.write _, rfl⟩, ⟨roomy.write _, rfl⟩⟩

end Machine

end ForkTape
