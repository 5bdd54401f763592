import ForkTape.Proofs.Block.Layout
import ForkTape.Proofs.Block.Meaning
import ForkTape.Proofs.Machine.Exec
import ForkTape.Proofs.Machine.Solo

/-!
# Machines carry out the meaning of their program

A machine alone knows its program as a row of instructions and jumps from bracket to bracket.
This module shows that it nevertheless carries out the program's block.

`Realizes` says of a part of the program that a machine, run from its beginning, does what a
meaning says and nothing else. Both directions are kept in one structure, because each part is
put together from smaller ones in the same way in both. The reflecting direction counts fuel:
a machine that jumps back into a loop has less of it left than at the pass before.
-/

namespace ForkTape

/-- The machine with the given store, about to execute the instruction at `ip` after `steps`
others. -/
def Machine.resume (machine : Machine) (ip : Nat) (store : Store) (steps : Nat) : Machine :=
  { machine with
    tape := store.tape, input := store.input, output := store.output, ip := ip, steps := steps }

namespace Block

variable {program : Program} {config : Machine.Config} {machine : Machine}

/-! ## Single turns -/

/-- Where a machine stands that has passed a bracket of the loop at `start`. -/
abbrev passed (start : Nat) (body : Block) (store : Store) : Nat :=
  if store.tape.scanned = 0 then start + 1 + body.size + 1 else start + 1

/-- The answers of a machine alone. -/
abbrev Yields (program : Program) (config : Machine.Config) (machine : Machine)
    (answer : Machine × Except Fault Unit) : Prop :=
  Answers (Machine.soloTurn program config) machine answer

section Turns

variable (unlimited : config.maxSteps = none) (live : machine.halted = false)
include unlimited live

/-- An action is carried out in one turn. -/
theorem soloTurn_act {ip : Nat} {action : Action}
    (found : program.instruction? ip = some action.val) (store : Store) (steps : Nat) :
    Machine.soloTurn program config (machine.resume ip store steps) =
      match store.act config.overflow action with
      | some next => .inl (machine.resume (ip + 1) next (steps + 1))
      | none => .inr (machine.resume ip store (steps + 1),
          .error (.tapeOverflow machine.id store.tape.size)) := by
  rcases action with ⟨instruction, plain⟩
  simp only [Machine.soloTurn, Machine.step, Machine.exec, Machine.resume, live,
    Bool.false_eq_true, if_false, found, unlimited, Limit.reached?_none, Store.act]
  cases instruction with
  | right =>
      rcases moved : store.tape.right config.overflow with ⟨tape, result⟩
      cases result with
      | rejected =>
          obtain ⟨_, rfl⟩ := Tape.of_right_rejected moved
          simp [Machine.perform, moved]
      | _ => simp [Machine.perform, moved, Machine.advance]
  | loopOpen => simp [Instruction.isBracket] at plain
  | loopClose => simp [Instruction.isBracket] at plain
  | _ => rfl

/-- A bracket is passed in one turn. Whichever of the two it is, the machine then stands behind
the loop or at the beginning of its body, as the scanned cell is zero or not. -/
theorem soloTurn_bracket {start : Nat} {body rest : Block}
    (located : At program start (loop body rest)) {ip : Nat}
    (bracket : ip = start ∨ ip = start + 1 + body.size) (store : Store) (steps : Nat) :
    Machine.soloTurn program config (machine.resume ip store steps) =
      .inl (machine.resume (passed start body store) store (steps + 1)) := by
  rcases bracket with rfl | rfl
  · obtain ⟨found, partner⟩ := located.loop_open
    by_cases zero : store.tape.scanned = 0 <;>
      simp [Machine.soloTurn, Machine.step, Machine.exec, Machine.perform, Machine.advance,
        Machine.resume, live, found, partner, unlimited, Limit.reached?_none, zero]
  · obtain ⟨found, partner⟩ := located.loop_close
    by_cases zero : store.tape.scanned = 0 <;>
      simp [Machine.soloTurn, Machine.step, Machine.exec, Machine.perform, Machine.advance,
        Machine.resume, live, found, partner, unlimited, Limit.reached?_none, zero]

theorem yields_bracket {start : Nat} {body rest : Block}
    (located : At program start (loop body rest)) {ip : Nat}
    (bracket : ip = start ∨ ip = start + 1 + body.size) (store : Store) (steps : Nat)
    (answer : Machine × Except Fault Unit) :
    Yields program config (machine.resume ip store steps) answer ↔
      Yields program config (machine.resume (passed start body store) store (steps + 1))
        answer :=
  answers_iff_of_turn_inl (soloTurn_bracket unlimited live located bracket store steps) answer

omit unlimited in
/-- Behind its last instruction a machine halts. -/
theorem soloTurn_end {ip : Nat} (missing : program.instruction? ip = none) (store : Store)
    (steps : Nat) :
    Machine.soloTurn program config (machine.resume ip store steps) =
      .inr ({ machine.resume ip store steps with halted := true }, .ok ()) := by
  simp [Machine.soloTurn, Machine.step, Machine.exec, Machine.resume, live, missing]

end Turns

/-! ## Parts of a program -/

/-- Between the instructions at `start` and at `stop`, a machine does what `meaning` says. -/
structure Realizes (program : Program) (config : Machine.Config) (machine : Machine)
    (start stop : Nat) (meaning : Meaning) : Prop where
  /-- A run that finishes leads the machine to `stop`. -/
  finishes {store last : Store} {cost : Nat} (run : meaning store cost (.finished last))
    (steps : Nat) (answer : Machine × Except Fault Unit) :
    Yields program config (machine.resume start store steps) answer ↔
      Yields program config (machine.resume stop last (steps + cost)) answer
  /-- A run that is rejected ends the machine's run. -/
  rejects {store last : Store} {cost : Nat} (run : meaning store cost (.rejected last))
    (steps : Nat) :
    ∃ ip, Yields program config (machine.resume start store steps)
      (machine.resume ip last (steps + cost), .error (.tapeOverflow machine.id last.tape.size))
  /-- A machine that ends its run carries out a run of the meaning first. -/
  reflects {fuel : Nat} {store : Store} {steps : Nat} {answer : Machine × Except Fault Unit}
    (found : iterate (Machine.soloTurn program config) fuel
      (machine.resume start store steps) = some answer) :
    ∃ cost ending, meaning store cost ending ∧ ∀ last, ending = .finished last →
      ∃ rest ≤ fuel, iterate (Machine.soloTurn program config) rest
        (machine.resume stop last (steps + cost)) = some answer

namespace Realizes

theorem idle {start : Nat} : Realizes program config machine start start Meaning.Idle where
  finishes run steps answer := by
    cases run
    rfl
  rejects run := by cases run
  reflects {fuel store steps answer} found := by
    refine ⟨0, .finished store, .intro, ?_⟩
    rintro last ⟨⟩
    exact ⟨fuel, Nat.le_refl fuel, found⟩

theorem acts (unlimited : config.maxSteps = none) (live : machine.halted = false)
    {start : Nat} {action : Action} (found : program.instruction? start = some action.val) :
    Realizes program config machine start (start + 1)
      (Meaning.Acts config.overflow action) where
  finishes {store last cost} run steps answer := by
    cases run with
    | carriedOut acted =>
        apply answers_iff_of_turn_inl
        rw [soloTurn_act unlimited live found, acted]
  rejects {store last cost} run steps := by
    cases run with
    | rejected refused =>
        refine ⟨start, ?_⟩
        rw [Yields, answers_iff_of_turn_inr]
        rw [soloTurn_act unlimited live found, refused]
  reflects {fuel store steps answer} answered := by
    cases fuel with
    | zero => simp [iterate] at answered
    | succ fuel =>
        rw [iterate, soloTurn_act unlimited live found] at answered
        cases acted : store.act config.overflow action with
        | none => exact ⟨1, .rejected store, .rejected acted, by rintro last ⟨⟩⟩
        | some next =>
            refine ⟨1, .finished next, .carriedOut acted, ?_⟩
            rintro last ⟨⟩
            rw [acted] at answered
            exact ⟨fuel, Nat.le_succ fuel, answered⟩

theorem andThen {start middle stop : Nat} {first next : Meaning}
    (firstPart : Realizes program config machine start middle first)
    (nextPart : Realizes program config machine middle stop next) :
    Realizes program config machine start stop (Meaning.Then first next) where
  finishes run steps answer := by
    cases run with
    | both firstRun nextRun =>
        rw [firstPart.finishes firstRun, nextPart.finishes nextRun, Nat.add_assoc]
  rejects run steps := by
    cases run with
    | both firstRun nextRun =>
        obtain ⟨ip, rejected⟩ := nextPart.rejects nextRun (steps + _)
        refine ⟨ip, (firstPart.finishes firstRun steps _).mpr ?_⟩
        rw [← Nat.add_assoc]
        exact rejected
    | rejected firstRun => exact firstPart.rejects firstRun steps
  reflects found := by
    obtain ⟨cost, ending, firstRun, continues⟩ := firstPart.reflects found
    cases ending with
    | rejected last => exact ⟨cost, .rejected last, .rejected firstRun, by rintro _ ⟨⟩⟩
    | finished middleStore =>
        obtain ⟨rest, rest_le, restFound⟩ := continues middleStore rfl
        obtain ⟨more, ending, nextRun, ends⟩ := nextPart.reflects restFound
        refine ⟨cost + more, ending, .both firstRun nextRun, ?_⟩
        intro last finished
        obtain ⟨remaining, remaining_le, remainingFound⟩ := ends last finished
        rw [Nat.add_assoc] at remainingFound
        exact ⟨remaining, Nat.le_trans remaining_le rest_le, remainingFound⟩

section Loop

variable (unlimited : config.maxSteps = none) (live : machine.halted = false)
  {start : Nat} {body rest : Block} (located : At program start (loop body rest))
  {meaning : Meaning}
  (bodyPart : Realizes program config machine (start + 1) (start + 1 + body.size) meaning)

include unlimited live located bodyPart

theorem finishes_passes {store last : Store} {cost : Nat}
    (passes : Meaning.Passes meaning store cost (.finished last)) (steps : Nat)
    (answer : Machine × Except Fault Unit) :
    Yields program config (machine.resume (passed start body store) store steps) answer ↔
      Yields program config (machine.resume (start + 1 + body.size + 1) last (steps + cost))
        answer := by
  generalize finished : Ending.finished last = ending at passes
  induction passes generalizing steps with
  | ended zero =>
      cases finished
      rw [passed, if_pos zero]
      rfl
  | @pass store middle cost more ending nonzero bodyRun _ ih =>
      rw [passed, if_neg nonzero, bodyPart.finishes bodyRun,
        yields_bracket unlimited live located (.inr rfl), ih _ finished]
      simp only [Nat.add_assoc]
  | rejected nonzero bodyRun => cases finished

theorem rejects_passes {store last : Store} {cost : Nat}
    (passes : Meaning.Passes meaning store cost (.rejected last)) (steps : Nat) :
    ∃ ip, Yields program config (machine.resume (passed start body store) store steps)
      (machine.resume ip last (steps + cost),
        .error (.tapeOverflow machine.id last.tape.size)) := by
  generalize rejected : Ending.rejected last = ending at passes
  induction passes generalizing steps with
  | ended zero => cases rejected
  | @pass store middle cost more ending nonzero bodyRun _ ih =>
      obtain ⟨ip, yields⟩ := ih (steps + cost + 1) rejected
      refine ⟨ip, ?_⟩
      rw [passed, if_neg nonzero, bodyPart.finishes bodyRun,
        yields_bracket unlimited live located (.inr rfl),
        show steps + (cost + 1 + more) = steps + cost + 1 + more by omega]
      exact yields
  | rejected nonzero bodyRun =>
      cases rejected
      rw [passed, if_neg nonzero]
      exact bodyPart.rejects bodyRun steps

/-- By induction on the fuel, since a machine that begins another pass has spent some on the
`]` before it. -/
theorem reflects_passes {fuel : Nat} {store : Store} {steps : Nat}
    {answer : Machine × Except Fault Unit}
    (found : iterate (Machine.soloTurn program config) fuel
      (machine.resume (passed start body store) store steps) = some answer) :
    ∃ cost ending, Meaning.Passes meaning store cost ending ∧
      ∀ last, ending = .finished last → ∃ remaining ≤ fuel,
        iterate (Machine.soloTurn program config) remaining
          (machine.resume (start + 1 + body.size + 1) last (steps + cost)) = some answer := by
  induction fuel using Nat.strongRecOn generalizing store steps with
  | ind fuel ih =>
      by_cases zero : store.tape.scanned = 0
      · rw [passed, if_pos zero] at found
        refine ⟨0, .finished store, .ended zero, ?_⟩
        rintro last ⟨⟩
        exact ⟨fuel, Nat.le_refl fuel, found⟩
      · rw [passed, if_neg zero] at found
        obtain ⟨cost, ending, bodyRun, continues⟩ := bodyPart.reflects found
        cases ending with
        | rejected last =>
            exact ⟨cost, .rejected last, .rejected zero bodyRun, by rintro _ ⟨⟩⟩
        | finished middle =>
            obtain ⟨left, left_le, leftFound⟩ := continues middle rfl
            cases left with
            | zero => simp [iterate] at leftFound
            | succ left =>
                rw [iterate,
                  soloTurn_bracket unlimited live located (.inr rfl) middle _] at leftFound
                obtain ⟨more, ending, passes, ends⟩ := ih left (by omega) leftFound
                refine ⟨cost + 1 + more, ending, .pass zero bodyRun passes, ?_⟩
                intro last finished
                obtain ⟨remaining, remaining_le, remainingFound⟩ := ends last finished
                refine ⟨remaining, by omega, ?_⟩
                rw [show steps + (cost + 1 + more) = steps + cost + 1 + more by omega]
                exact remainingFound

theorem loops : Realizes program config machine start (start + 1 + body.size + 1)
    (Meaning.Loops meaning) where
  finishes run steps answer := by
    cases run with
    | arrive passes =>
        rw [yields_bracket unlimited live located (.inl rfl),
          finishes_passes unlimited live located bodyPart passes, Nat.add_assoc steps]
  rejects run steps := by
    cases run with
    | arrive passes =>
        obtain ⟨ip, yields⟩ :=
          rejects_passes unlimited live located bodyPart passes (steps + 1)
        refine ⟨ip, ?_⟩
        rw [yields_bracket unlimited live located (.inl rfl), ← Nat.add_assoc]
        exact yields
  reflects {fuel store steps answer} found := by
    cases fuel with
    | zero => simp [iterate] at found
    | succ fuel =>
        rw [iterate, soloTurn_bracket unlimited live located (.inl rfl)] at found
        obtain ⟨cost, ending, passes, ends⟩ :=
          reflects_passes unlimited live located bodyPart found
        refine ⟨1 + cost, ending, .arrive passes, ?_⟩
        intro last finished
        obtain ⟨remaining, remaining_le, remainingFound⟩ := ends last finished
        rw [Nat.add_assoc steps] at remainingFound
        exact ⟨remaining, Nat.le_trans remaining_le (Nat.le_succ fuel), remainingFound⟩

end Loop

end Realizes

/-- A machine carries out every block of its program. -/
theorem realizes_runs (unlimited : config.maxSteps = none) (live : machine.halted = false)
    {block : Block} {start : Nat} (located : At program start block) :
    Realizes program config machine start (start + block.size)
      (block.Runs config.overflow) := by
  induction block generalizing start with
  | done => exact Realizes.idle
  | act action rest ih =>
      have restPart := ih located.act_rest
      rw [show start + (act action rest).size = start + 1 + rest.size by
        simp only [size]; omega]
      exact (Realizes.acts unlimited live located.act_instruction).andThen restPart
  | loop body rest bodyIh restIh =>
      have restPart := restIh located.loop_rest
      rw [show start + (loop body rest).size = start + 1 + body.size + 1 + rest.size by
        simp only [size]; omega]
      exact (Realizes.loops unlimited live located (bodyIh located.loop_body)).andThen restPart

/-! ## Whole programs -/

/-- What the run of a machine alone shows of a run of a block: how it ended, the store it left,
and its cost, by which the machine's steps have grown. -/
inductive Shows (machine : Machine) (run : Machine.Run) : Nat → Ending → Prop
  | finished {cost : Nat} (halted : run.outcome = .ok ())
      (steps : run.machine.steps = machine.steps + cost) :
      Shows machine run cost (.finished run.machine.store)
  | rejected {cost : Nat}
      (faulted : run.outcome = .error (.tapeOverflow machine.id run.machine.tape.size))
      (steps : run.machine.steps = machine.steps + cost) :
      Shows machine run cost (.rejected run.machine.store)

/-- A run shows one cost and one ending. -/
theorem Shows.unique {run : Machine.Run} {firstCost secondCost : Nat}
    {firstEnding secondEnding : Ending} (first : Shows machine run firstCost firstEnding)
    (second : Shows machine run secondCost secondEnding) :
    firstCost = secondCost ∧ firstEnding = secondEnding := by
  cases first with
  | finished halted steps =>
      cases second with
      | finished _ otherSteps =>
          exact ⟨Nat.add_left_cancel (steps.symm.trans otherSteps), rfl⟩
      | rejected faulted _ =>
          rw [halted] at faulted
          contradiction
  | rejected faulted steps =>
      cases second with
      | finished halted _ =>
          rw [halted] at faulted
          contradiction
      | rejected _ otherSteps =>
          exact ⟨Nat.add_left_cancel (steps.symm.trans otherSteps), rfl⟩

section Programs

variable {block : Block} (unlimited : config.maxSteps = none) (start : machine.ip = 0)
  (live : machine.halted = false) (parsed : parse? program.instructions.toList = some block)

theorem resume_self (start : machine.ip = 0) :
    machine.resume 0 machine.store machine.steps = machine := by
  rw [← start]
  rfl

include unlimited start live parsed

/-- Every run of the block is shown by a run of the machine. -/
theorem exists_shows_of_runs {cost : Nat} {ending : Ending}
    (blockRun : block.Runs config.overflow machine.store cost ending) :
    ∃ fuel run, machine.run program config fuel = some run ∧ Shows machine run cost ending := by
  have whole := realizes_runs unlimited live (at_of_parse? parsed)
  rw [Nat.zero_add, size_of_parse? parsed] at whole
  cases ending with
  | finished last =>
      have missing : program.instruction? program.size = none :=
        Array.getElem?_eq_none (Nat.le_refl _)
      have halts : Yields program config
          (machine.resume program.size last (machine.steps + cost)) _ :=
        (answers_iff_of_turn_inr (soloTurn_end live missing last _) _).mpr rfl
      have yields := (whole.finishes blockRun machine.steps _).mpr halts
      rw [resume_self start] at yields
      obtain ⟨fuel, run, returned, machineEq, outcomeEq⟩ :=
        Machine.exists_run_iff_answers.mpr yields
      have shown : Shows machine run cost (.finished run.machine.store) :=
        .finished outcomeEq (by rw [machineEq]; rfl)
      rw [machineEq] at shown
      exact ⟨fuel, run, returned, shown⟩
  | rejected last =>
      obtain ⟨ip, yields⟩ := whole.rejects blockRun machine.steps
      rw [resume_self start] at yields
      obtain ⟨fuel, run, returned, machineEq, outcomeEq⟩ :=
        Machine.exists_run_iff_answers.mpr yields
      have shown : Shows machine run cost (.rejected run.machine.store) :=
        .rejected (by rw [outcomeEq, machineEq]; rfl) (by rw [machineEq]; rfl)
      rw [machineEq] at shown
      exact ⟨fuel, run, returned, shown⟩

/-- Every run of the machine shows a run of the block. -/
theorem exists_runs_of_run {fuel : Nat} {run : Machine.Run}
    (returned : machine.run program config fuel = some run) :
    ∃ cost ending, block.Runs config.overflow machine.store cost ending ∧
      Shows machine run cost ending := by
  have yields := Machine.exists_run_iff_answers.mp ⟨fuel, run, returned, rfl, rfl⟩
  have resumed := yields
  rw [← resume_self start] at resumed
  obtain ⟨_, found⟩ := resumed
  obtain ⟨cost, ending, blockRun, _⟩ :=
    (realizes_runs unlimited live (at_of_parse? parsed)).reflects found
  obtain ⟨otherFuel, otherRun, otherReturned, shown⟩ :=
    exists_shows_of_runs unlimited start live parsed blockRun
  have both := iterate_mono returned otherFuel
  rw [Nat.add_comm] at both
  obtain rfl : otherRun = run :=
    Option.some.inj ((iterate_mono otherReturned fuel).symm.trans both)
  exact ⟨cost, ending, blockRun, shown⟩

end Programs

/-- Every program is written out by a block, and a machine that runs the program alone from its
beginning, with any store and without a limit to its steps, agrees with that block. Its run halts
exactly when a run of the block finishes and faults exactly when a run of the block has a move
rejected; it never ends otherwise; and it leaves the store of the block's run and has taken as
many steps as that run costs. -/
theorem exists_block_runs_iff (program : Program) :
    ∃ block, parse? program.instructions.toList = some block ∧
      ∀ (config : Machine.Config) (machine : Machine),
        config.maxSteps = none → machine.ip = 0 → machine.halted = false →
        (∀ cost ending, block.Runs config.overflow machine.store cost ending ↔
          ∃ fuel run, machine.run program config fuel = some run ∧
            Shows machine run cost ending) ∧
        ∀ fuel run, machine.run program config fuel = some run →
          ∃ cost ending, Shows machine run cost ending := by
  obtain ⟨block, parsed⟩ := exists_parse?_of_paired program.paired
  refine ⟨block, parsed, ?_⟩
  intro config machine unlimited start live
  constructor
  · intro cost ending
    constructor
    · exact exists_shows_of_runs unlimited start live parsed
    · rintro ⟨fuel, run, returned, shown⟩
      obtain ⟨otherCost, otherEnding, blockRun, otherShown⟩ :=
        exists_runs_of_run unlimited start live parsed returned
      obtain ⟨rfl, rfl⟩ := shown.unique otherShown
      exact blockRun
  · intro fuel run returned
    obtain ⟨cost, ending, _, shown⟩ := exists_runs_of_run unlimited start live parsed returned
    exact ⟨cost, ending, shown⟩

/-- The program `,[.,]`, which copies its input to its output up to the first zero byte. -/
def echo : Program where
  instructions := #[.input, .loopOpen, .output, .input, .loopClose]
  offsets := #[0, 1, 2, 3, 4]
  pairing := ⟨#[none, some 4, none, none, some 1]⟩
  paired := rfl

/-- Echoing one byte costs its reading, the arrival at the loop, two actions in the loop and the
pass through it. -/
theorem echo_runs :
    ∃ block, parse? echo.instructions.toList = some block ∧
      ∃ store, block.Runs .reject ⟨Tape.ofCapacity 1, ⟨[65]⟩, #[]⟩ 5 (.finished store) ∧
        store.output = #[65] := by
  obtain ⟨block, parsed, agrees⟩ := exists_block_runs_iff echo
  have runs := (agrees { maxSteps := none } (.initial { tapeCapacity := 1 } ⟨[65]⟩)
    rfl rfl rfl).1 5
  exact ⟨block, parsed, _, (runs _).mpr ⟨6, _, rfl, .finished rfl rfl⟩, rfl⟩

end Block

end ForkTape
