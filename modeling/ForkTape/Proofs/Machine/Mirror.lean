import ForkTape.Machine
import ForkTape.Proofs.Iteration
import ForkTape.Report

/-!
# Machines that mirror each other

Two machines can differ in something that nobody sees, such as how many blank cells their tapes
have left. `Mirrors` says of a relation between machines that related machines are reported alike
and that executing an instruction keeps them related, each under its own configuration. It allows
for faults that only the first machine comes to; after such a fault nothing is said any more.

A run of one machine is then mirrored turn by turn (`Mirrors.run`). What runs of many machines
make of it is said in `ForkTape.Proofs.Pool.Mirror`.
-/

namespace ForkTape.Machine

/-- Machines that `alike` relates do the same under their configurations, unless the first comes to
a fault that `parts` them. -/
structure Mirrors (program : Program) (split : Input.Split) (config other : Config)
    (alike : Machine → Machine → Prop) (parts : Fault → Prop) : Prop where
  result {machine mirror : Machine} (related : alike machine mirror) :
    machine.result = mirror.result
  ip {machine mirror : Machine} (related : alike machine mirror) : machine.ip = mirror.ip
  exec {machine mirror : Machine} (related : alike machine mirror) :
    (∃ fault, (machine.exec program config).outcome = .error fault ∧ parts fault) ∨
      ((mirror.exec program other).outcome = (machine.exec program config).outcome ∧
        alike (machine.exec program config).machine (mirror.exec program other).machine)
  passFork {machine mirror : Machine} (related : alike machine mirror) :
    alike machine.passFork mirror.passFork
  fork {machine mirror : Machine} (related : alike machine mirror) (child : Nat) :
    alike (machine.fork child split).1 (mirror.fork child split).1 ∧
      alike (machine.fork child split).2 (mirror.fork child split).2

namespace Mirrors

variable {program : Program} {split : Input.Split} {config other : Config}
  {alike : Machine → Machine → Prop} {parts : Fault → Prop} {machine mirror : Machine}

theorem id (mirrors : Mirrors program split config other alike parts)
    (related : alike machine mirror) : machine.id = mirror.id :=
  congrArg Result.id (mirrors.result related)

theorem halted (mirrors : Mirrors program split config other alike parts)
    (related : alike machine mirror) : machine.halted = mirror.halted :=
  congrArg Result.halted (mirrors.result related)

/-- Two runs have ended alike. -/
structure EndAlike (alike : Machine → Machine → Prop) (run mirrored : Run) : Prop where
  outcome : mirrored.outcome = run.outcome
  machine : alike run.machine mirrored.machine

/-- The turns of machines that run alone are mirrored, whatever their logs hold. -/
theorem runTurn (mirrors : Mirrors program split config other alike parts)
    (source target : Machine × Array Event) (related : alike source.1 target.1) :
    TurnsAlike (fun source target => alike source.1 target.1) (EndAlike alike)
      (fun run => ∃ fault, run.outcome = .error fault ∧ parts fault)
      (Machine.runTurn program config source) (Machine.runTurn program other target) := by
  rcases source with ⟨machine, log⟩
  rcases target with ⟨mirror, mirrorLog⟩
  rcases executed : machine.exec program config with ⟨next, outcome, event?⟩
  rcases mirrored : mirror.exec program other with ⟨mirrorNext, mirrorOutcome, mirrorEvent?⟩
  have executes := mirrors.exec related
  simp only [executed, mirrored] at executes
  simp only [Machine.runTurn, step, executed, mirrored]
  rcases executes with ⟨fault, rfl, parted⟩ | ⟨rfl, nextRelated⟩
  · exact .parted ⟨fault, rfl, parted⟩
  · cases mirrorOutcome with
    | error fault => exact .answered ⟨rfl, nextRelated⟩
    | ok progress =>
        cases progress with
        | advanced => exact .continued nextRelated
        | atFork => exact .continued (mirrors.passFork nextRelated)
        | halted => exact .answered ⟨rfl, nextRelated⟩

/-- A run of a machine alone is mirrored, unless it ends in a fault that parts the machines. -/
theorem run (mirrors : Mirrors program split config other alike parts)
    (related : alike machine mirror) {fuel : Nat} {run : Run}
    (found : machine.run program config fuel = some run) :
    (∃ fault, run.outcome = .error fault ∧ parts fault) ∨
      ∃ mirrored, mirror.run program other fuel = some mirrored ∧ EndAlike alike run mirrored :=
  iterate_alike mirrors.runTurn related found

end Mirrors

end ForkTape.Machine
