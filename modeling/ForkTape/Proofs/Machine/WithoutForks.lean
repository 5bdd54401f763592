import ForkTape.Proofs.Machine.Solo
import ForkTape.Proofs.Program.WithoutForks

/-!
# Forks that nobody resolves

A machine that runs alone passes every `fork`, which costs it a turn and changes nothing but the
instruction pointer. It does what it would do if the program had no `fork`s, only later: with each
`fork` that it passes it falls behind by one instruction (`Trails`). A program ends, so between two
other instructions there are only so many `fork`s, and neither machine runs on when the other has
stopped (`keepsPace_withoutForks`).
-/

namespace ForkTape.Machine

variable {program rest : Program} {config : Config}

/-- The machine at the same instruction of the program without its forks, when it has executed
`steps` instructions of that one. -/
def lessForks (program : Program) (steps : Nat) (machine : Machine) : Machine :=
  { machine with ip := program.indexLessForks machine.ip, steps := steps }

/-- An instruction that is no `fork` does the same in both programs. -/
theorem perform_lessForks (dropped : program.WithoutForks rest) (overflow : Tape.Overflow)
    {instruction : Instruction} {machine : Machine}
    (found : program.instruction? machine.ip = some instruction) (plain : instruction ≠ .fork)
    (steps : Nat) :
    (perform rest overflow instruction (machine.lessForks program steps)).outcome =
        (perform program overflow instruction machine).outcome ∧
      (perform rest overflow instruction (machine.lessForks program steps)).machine =
        (perform program overflow instruction machine).machine.lessForks program steps := by
  have next := Program.indexLessForks_succ found plain
  cases instruction with
  | right =>
      rcases moved : machine.tape.right overflow with ⟨tape, result⟩
      cases result <;> simp [perform, lessForks, advance, moved, next]
  | loopOpen | loopClose =>
      obtain ⟨partner, other, paired, otherFound, isBracket⟩ := Program.exists_partner? found rfl
      have otherPlain : other ≠ .fork := by
        rintro rfl
        contradiction
      have partnerNext := Program.indexLessForks_succ otherFound otherPlain
      have stillPaired := dropped.partner?_of_partner? paired
      by_cases zero : machine.tape.scanned = 0 <;>
        simp [perform, lessForks, advance, next, zero, paired, stillPaired, partnerNext]
  | fork => exact absurd rfl plain
  | _ => simp [perform, lessForks, advance, next]

/-- The machine `shadow` runs the program without its forks and stands where `machine` does, which
has passed `forks` of them. -/
structure Trails (program : Program) (forks : Nat) (machine shadow : Machine) : Prop where
  same : shadow = machine.lessForks program shadow.steps
  steps : machine.steps = shadow.steps + forks

namespace Trails

variable {forks : Nat} {machine shadow : Machine}

theorem exists_steps (trails : Trails program forks machine shadow) :
    ∃ steps, shadow = machine.lessForks program steps ∧ machine.steps = steps + forks :=
  ⟨shadow.steps, trails.same, trails.steps⟩

/-- Both machines count an instruction. -/
theorem count (trails : Trails program forks machine shadow) :
    Trails program forks machine.count shadow.count := by
  obtain ⟨steps, rfl, behind⟩ := trails.exists_steps
  refine ⟨rfl, ?_⟩
  simp only [Machine.count, lessForks, behind]
  exact Nat.add_right_comm ..

/-- Both machines carry out an instruction that is no `fork`. -/
theorem perform (trails : Trails program forks machine shadow)
    (dropped : program.WithoutForks rest) (overflow : Tape.Overflow) {instruction : Instruction}
    (found : program.instruction? machine.ip = some instruction) (plain : instruction ≠ .fork) :
    (Machine.perform rest overflow instruction shadow).outcome =
        (Machine.perform program overflow instruction machine).outcome ∧
      Trails program forks (Machine.perform program overflow instruction machine).machine
        (Machine.perform rest overflow instruction shadow).machine := by
  obtain ⟨steps, rfl, behind⟩ := trails.exists_steps
  obtain ⟨outcome, same⟩ := perform_lessForks dropped overflow found plain steps
  have counted := (perform_keeps program overflow instruction machine).2.2.1
  refine ⟨outcome, ?_⟩
  rw [same]
  exact ⟨rfl, counted.trans behind⟩

/-- Whatever is no `fork` is executed alike. -/
theorem exec (trails : Trails program forks machine shadow) (dropped : program.WithoutForks rest)
    (unlimited : config.maxSteps = none)
    (noFork : (machine.exec program config).outcome ≠ .ok .atFork) :
    (shadow.exec rest config).outcome = (machine.exec program config).outcome ∧
      Trails program forks (machine.exec program config).machine
        (shadow.exec rest config).machine := by
  obtain ⟨steps, rfl, behind⟩ := trails.exists_steps
  have admitted (steps : Nat) : config.maxSteps.reached? steps = none := by
    rw [unlimited, Limit.reached?_none]
  by_cases halted : machine.halted = true
  · have shadowHalted : (machine.lessForks program steps).halted = true := halted
    rw [exec_of_halted halted, exec_of_halted shadowHalted]
    exact ⟨rfl, trails⟩
  · have live : machine.halted = false := Bool.eq_false_iff.mpr halted
    have shadowLive : (machine.lessForks program steps).halted = false := live
    cases found : program.instruction? machine.ip with
    | none =>
        have shadowMissing := dropped.instruction?_eq_none found
        rw [exec_of_missing live found, exec_of_missing shadowLive shadowMissing]
        exact ⟨rfl, rfl, behind⟩
    | some instruction =>
        rw [exec_eq_perform live found (admitted _)] at noFork ⊢
        have plain : instruction ≠ .fork := by
          rintro rfl
          exact noFork rfl
        have shadowFound := dropped.instruction?_of_ne_fork found plain
        rw [exec_eq_perform shadowLive shadowFound (admitted _)]
        exact trails.count.perform dropped config.overflow found plain

/-- Passing a `fork` leaves the machine behind by one more. -/
theorem passFork (trails : Trails program forks machine shadow)
    (found : program.instruction? machine.ip = some .fork) :
    Trails program (forks + 1) machine.count.passFork shadow := by
  obtain ⟨steps, rfl, behind⟩ := trails.exists_steps
  constructor
  · simp only [lessForks, Machine.count, Machine.passFork, advance,
      Program.indexLessForks_succ_of_fork found]
  · exact congrArg (· + 1) behind

end Trails

/-- Of two states of runs, the second trails the first by as many instructions as the log of the
first tells of forks that were passed. -/
def TrailsLogged (program : Program) (source target : Machine × Array Event) : Prop :=
  Trails program (passed source.2).length source.1 target.1

/-- Two runs have ended alike, the second without the forks that the first has passed. -/
structure EndWithoutForks (program : Program) (run restRun : Run) : Prop where
  outcome : restRun.outcome = run.outcome
  trails : Trails program (passed run.log).length run.machine restRun.machine

/-- A machine that passes forks keeps pace with one that has none to pass. -/
theorem keepsPace_withoutForks (dropped : program.WithoutForks rest)
    (unlimited : config.maxSteps = none) :
    KeepsPace (runTurn program config) (runTurn rest config) (TrailsLogged program)
      (EndWithoutForks program) (fun state => program.size - state.1.ip) := by
  -- The delay is what is left of the program. A `fork` that is passed leaves less of it.
  rintro ⟨machine, log⟩ ⟨shadow, shadowLog⟩ trails
  rcases executed : machine.exec program config with ⟨next, outcome, event?⟩
  by_cases atFork : outcome = .ok .atFork
  · left
    subst atFork
    cases executes_of_exec executed with
    | reachedFork live found admitted =>
        have within := program.lt_size_of_instruction? found
        refine ⟨(machine.count.passFork, log.push (.forkIgnored machine.id machine.ip)), ?_, ?_, ?_⟩
        · simp only [runTurn, step, executed]
          rfl
        · rw [TrailsLogged, passed_push, List.length_append]
          exact trails.passFork found
        · exact Nat.sub_succ_lt_self _ _ within
  · right
    have noFork : (machine.exec program config).outcome ≠ .ok .atFork := by
      rw [executed]
      exact atFork
    obtain ⟨sameOutcome, sameTrails⟩ := trails.exec dropped unlimited noFork
    rcases shadowed : shadow.exec rest config with ⟨shadowNext, shadowOutcome, shadowEvent?⟩
    simp only [executed, shadowed] at sameOutcome sameTrails
    subst sameOutcome
    have effect : ∀ event, event? = some event → event.isEffect = true :=
      fun _ => (executes_of_exec executed).event_isEffect
    have nextTrails : Trails program (passed (logAny event? log)).length next shadowNext := by
      rw [passed_logAny effect]
      exact sameTrails
    simp only [runTurn, step, executed, shadowed]
    cases shadowOutcome with
    | error fault => exact .answered ⟨rfl, nextTrails⟩
    | ok progress =>
        cases progress with
        | advanced => exact .continued nextTrails
        | atFork => exact absurd rfl atFork
        | halted => exact .answered ⟨rfl, nextTrails⟩

/-! ## Whole runs -/

/-- How a run without a step limit can have ended: the machine halted, or its tape rejected a
move. -/
inductive Stops (run : Run) : Prop
  | halted (outcome : run.outcome = .ok ()) (halted : run.machine.halted = true)
  | rejected {capacity : Nat}
      (outcome : run.outcome = .error (.tapeOverflow run.machine.id capacity))

/-- A turn keeps the machine's place in the tree, and the last one lets the run stop so. -/
theorem runTurn_stops (program : Program) (unlimited : config.maxSteps = none)
    (state : Machine × Array Event) :
    (runTurn program config state).elim (fun next => next.1.kin = state.1.kin)
      fun run => Stops run ∧ run.machine.kin = state.1.kin := by
  rcases state with ⟨machine, log⟩
  rcases executed : machine.exec program config with ⟨next, outcome, event?⟩
  have executes := executes_of_exec executed
  have kinEq : next.kin = machine.kin := executes.kin_eq
  simp only [runTurn, step, executed]
  cases outcome with
  | error fault =>
      refine ⟨?_, kinEq⟩
      cases executes with
      | limited live found reached =>
          rw [unlimited] at reached
          contradiction
      | rejected live found admitted last => exact .rejected rfl
  | ok progress =>
      cases progress with
      | advanced => exact kinEq
      | atFork => exact kinEq
      | halted =>
          refine ⟨.halted rfl ?_, kinEq⟩
          cases executes with
          | rested halted => exact halted
          | ended live missing => rfl

/-- A run without a step limit stops in one of these ways, and its machine keeps its place in the
tree. -/
theorem stops_of_run (unlimited : config.maxSteps = none) {fuel : Nat} {machine : Machine}
    {run : Run} (returned : machine.run program config fuel = some run) :
    Stops run ∧ run.machine.kin = machine.kin := by
  apply Answers.preserves (fun state => state.1.kin = machine.kin)
    (fun run => Stops run ∧ run.machine.kin = machine.kin) ⟨fuel, returned⟩ rfl
  · intro state next kinEq turned
    have kept := runTurn_stops program unlimited state
    rw [turned] at kept
    exact Eq.trans kept kinEq
  · intro state found kinEq turned
    have kept := runTurn_stops program unlimited state
    rw [turned] at kept
    exact ⟨kept.1, kept.2.trans kinEq⟩

/-- What holds between a run that has passed so many `fork`s and a run of the same program without
its forks. -/
structure SameButForks (program : Program) (forks : Nat) (run restRun : Run) : Prop where
  /-- Both machines have halted, or both tapes have rejected a move. -/
  stops : Stops run
  outcome : restRun.outcome = run.outcome
  /-- The machines are the same, and so are their tapes, inputs and outputs. But the instruction at
  which they stand has another index, and one has executed more of them. -/
  machine : restRun.machine = { run.machine with
    ip := program.indexLessForks run.machine.ip, steps := restRun.machine.steps }
  childless : run.machine.children = #[]
  /-- Of what was executed, only the forks are left out. -/
  steps : run.machine.steps = restRun.machine.steps + forks

/-- A machine that runs alone without a step limit does not show whether its program has forks. With
them and without them it runs forever, or it stops in the same way with the same tape, input and
output, after as many more steps as it has executed forks. -/
theorem run_withoutForks (program : Program) (config : Config) (unlimited : config.maxSteps = none)
    (input : Input) :
    (∃ rest, program.WithoutForks rest) ∧
    ∀ rest, program.WithoutForks rest →
      ((∃ fuel run, (initial config input).run program config fuel = some run) ↔
        ∃ fuel run, (initial config input).run rest config fuel = some run) ∧
      ∀ fuel run restFuel restRun,
        (initial config input).run program config fuel = some run →
        (initial config input).run rest config restFuel = some restRun →
        SameButForks program (forkSites program config fuel (initial config input)).length
          run restRun := by
  refine ⟨program.exists_withoutForks, ?_⟩
  intro rest dropped
  have keeps := keepsPace_withoutForks dropped unlimited
  have start : TrailsLogged program (initial config input, #[]) (initial config input, #[]) :=
    ⟨rfl, rfl⟩
  refine ⟨⟨?_, ?_⟩, ?_⟩
  · rintro ⟨fuel, run, returned⟩
    obtain ⟨restRun, ⟨restFuel, restReturned⟩, _⟩ := keeps.forward start ⟨fuel, returned⟩
    exact ⟨restFuel, restRun, restReturned⟩
  · rintro ⟨restFuel, restRun, restReturned⟩
    obtain ⟨run, ⟨fuel, returned⟩, _⟩ := keeps.backward start ⟨restFuel, restReturned⟩
    exact ⟨fuel, run, returned⟩
  · intro fuel run restFuel restRun returned restReturned
    obtain ⟨matched, restAnswers, ended⟩ := keeps.forward start ⟨fuel, returned⟩
    obtain rfl := restAnswers.unique ⟨restFuel, restReturned⟩
    obtain ⟨stops, kinEq⟩ := stops_of_run unlimited returned
    constructor
    · exact stops
    · exact ended.outcome
    · exact ended.trails.same
    · exact Array.toList_eq_nil_iff.mp (congrArg Kin.children kinEq)
    · rw [← passed_log_run returned]
      exact ended.trails.steps

/-- Counts down from two and forks in the loop and behind it. -/
def countForking : Program where
  instructions := #[.inc, .inc, .loopOpen, .fork, .dec, .loopClose, .fork, .output]
  offsets := #[0, 1, 2, 3, 7, 8, 9, 13]
  pairing := ⟨#[none, none, some 5, none, none, some 2, none, none]⟩
  paired := rfl

/-- The same without forks. -/
def countOnly : Program where
  instructions := #[.inc, .inc, .loopOpen, .dec, .loopClose, .output]
  offsets := #[0, 1, 2, 3, 4, 5]
  pairing := ⟨#[none, none, some 4, none, some 2, none]⟩
  paired := rfl

/-- The loop is entered once and repeated once, so three forks are passed. -/
theorem countForking_run_withoutForks :
    ∃ run restRun,
      (initial ⟨1, none, .reject⟩ ⟨[]⟩).run countForking ⟨1, none, .reject⟩ 12 = some run ∧
      (initial ⟨1, none, .reject⟩ ⟨[]⟩).run countOnly ⟨1, none, .reject⟩ 9 = some restRun ∧
      restRun.machine.steps = 8 ∧
      SameButForks countForking 3 run restRun :=
  ⟨_, _, rfl, rfl, rfl,
    ((run_withoutForks countForking ⟨1, none, .reject⟩ rfl ⟨[]⟩).2 countOnly rfl).2
      12 _ 9 _ rfl rfl⟩

end ForkTape.Machine
