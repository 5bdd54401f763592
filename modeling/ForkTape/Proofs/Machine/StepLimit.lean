import ForkTape.Proofs.Machine.Solo

/-!
# A machine alone under a step limit

A machine that runs alone counts one instruction in every turn but the last, in which it halts. So
a limit on its instructions makes no difference to a run that keeps within it, and stops every
other run after exactly as many turns, in the state that the run has then without the limit.
-/

namespace ForkTape

/-- The state after so many turns, none of which has found an answer. -/
def afterTurns? (turn : σ → σ ⊕ α) : Nat → σ → Option σ
  | 0, state => some state
  | count + 1, state =>
      match turn state with
      | .inl next => afterTurns? turn count next
      | .inr _ => none

namespace Machine

/-- The configuration with another limit on the instructions of a machine. -/
def Config.withStepLimit (limit : Limit) (config : Config) : Config :=
  { config with maxSteps := limit }

variable {program : Program} {config : Config} {machine : Machine} {limit : Nat}

/-- At its limit a machine executes no instruction. -/
theorem exec_eq_limited (pending : machine.pending program = true)
    (reached : limit ≤ machine.steps) :
    machine.exec program (config.withStepLimit (some limit)) =
      ⟨machine, .error (.stepLimit machine.id limit), none⟩ := by
  rw [Machine.pending, Bool.and_eq_true, Bool.not_eq_true', decide_eq_true_eq] at pending
  have found : program.instruction? machine.ip = some _ :=
    Array.getElem?_eq_getElem pending.2
  have stopped : (config.withStepLimit (some limit)).maxSteps.reached? machine.steps =
      some limit :=
    Limit.reached?_eq_some_iff.mpr ⟨rfl, reached⟩
  simp [exec, pending.1, found, stopped]

/-- Before its limit a machine does what it does without one. -/
theorem exec_eq_of_admitted (admitted : machine.pending program = true → machine.steps < limit) :
    machine.exec program (config.withStepLimit (some limit)) =
      machine.exec program (config.withStepLimit none) := by
  cases halted : machine.halted with
  | true => rw [exec_of_halted halted, exec_of_halted halted]
  | false =>
      cases found : program.instruction? machine.ip with
      | none => rw [exec_of_missing halted found, exec_of_missing halted found]
      | some instruction =>
          have within : machine.steps < limit := admitted (pending_of_found halted found)
          have unreached : Limit.reached? (some limit) machine.steps = none := by
            simpa [Limit.reached?] using within
          rw [exec_eq_perform halted found unreached, exec_eq_perform halted found]
          · rfl
          · exact Limit.reached?_none machine.steps

variable {log : Array Event}

/-- At its limit a run alone stops. -/
theorem runTurn_eq_limited (pending : machine.pending program = true)
    (reached : limit ≤ machine.steps) :
    runTurn program (config.withStepLimit (some limit)) (machine, log) =
      .inr ⟨machine, .error (.stepLimit machine.id limit), log⟩ := by
  simp [runTurn, step, exec_eq_limited pending reached]

/-- Before its limit a run alone goes on as it does without one. -/
theorem runTurn_eq_of_admitted
    (admitted : machine.pending program = true → machine.steps < limit) :
    runTurn program (config.withStepLimit (some limit)) (machine, log) =
      runTurn program (config.withStepLimit none) (machine, log) := by
  simp [runTurn, step, exec_eq_of_admitted admitted]

/-- A turn after which the run goes on executes an instruction and counts it. -/
theorem of_runTurn_inl {next : Machine × Array Event}
    (turned : runTurn program config (machine, log) = .inl next) :
    machine.pending program = true ∧ next.1.steps = machine.steps + 1 ∧
      next.1.id = machine.id := by
  have executes := executes program config machine
  have pending := executes.pending_iff
  have id := executes.grows.id
  simp only [runTurn, step] at turned
  rcases executed : machine.exec program config with ⟨after, outcome, event?⟩
  rw [executed] at executes pending id turned
  cases outcome with
  | error fault => contradiction
  | ok progress =>
      cases progress with
      | halted => contradiction
      | advanced =>
          cases turned
          exact ⟨pending.mpr (by simp), executes.of_advanced.2, id⟩
      | atFork =>
          cases turned
          cases executes with
          | reachedFork live found admitted => exact ⟨pending.mpr (by simp), rfl, rfl⟩

/-- In the turn in which it ends without a fault, the machine counts nothing. -/
theorem of_runTurn_inr {run : Run} (turned : runTurn program config (machine, log) = .inr run)
    (finished : run.outcome = .ok ()) :
    machine.pending program = false ∧ run.machine.steps = machine.steps := by
  have executes := executes program config machine
  have pending := executes.pending_iff
  simp only [runTurn, step] at turned
  rcases executed : machine.exec program config with ⟨after, outcome, event?⟩
  rw [executed] at executes pending turned
  cases outcome with
  | error fault =>
      cases turned
      contradiction
  | ok progress =>
      cases progress with
      | advanced => contradiction
      | atFork => contradiction
      | halted =>
          cases turned
          constructor
          · exact Bool.eq_false_iff.mpr fun isPending => pending.mp isPending rfl
          · cases executes <;> rfl

/-- A machine counts on. -/
theorem steps_le_of_iterate {fuel : Nat} {state : Machine × Array Event} {run : Run}
    (returned : iterate (runTurn program config) fuel state = some run)
    (finished : run.outcome = .ok ()) : state.1.steps ≤ run.machine.steps := by
  refine Answers.preserves (fun later => state.1.steps ≤ later.1.steps)
    (fun run => run.outcome = .ok () → state.1.steps ≤ run.machine.steps) ⟨fuel, returned⟩
    (Nat.le_refl _) ?_ ?_ finished
  · rintro ⟨machine, log⟩ next le turned
    rw [(of_runTurn_inl turned).2.1]
    exact Nat.le_succ_of_le le
  · rintro ⟨machine, log⟩ run le turned finished
    rw [(of_runTurn_inr turned finished).2]
    exact le

/-- A run alone that ends without a fault ends alike under every limit that it keeps within. Under
any other it stops in the state that it has without the limit after as many turns as are left. -/
theorem iterate_withStepLimit {fuel : Nat} {run : Run} (within : machine.steps ≤ limit)
    (returned : iterate (runTurn program (config.withStepLimit none)) fuel (machine, log) =
      some run) (finished : run.outcome = .ok ()) :
    (run.machine.steps ≤ limit →
      iterate (runTurn program (config.withStepLimit (some limit))) fuel (machine, log) =
        some run) ∧
    (limit < run.machine.steps → ∃ state,
      afterTurns? (runTurn program (config.withStepLimit none)) (limit - machine.steps)
        (machine, log) = some state ∧ state.1.steps = limit ∧
      iterate (runTurn program (config.withStepLimit (some limit))) fuel (machine, log) =
        some ⟨state.1, .error (.stepLimit machine.id limit), state.2⟩) := by
  induction fuel generalizing machine log with
  | zero => simp [iterate] at returned
  | succ fuel ih =>
      rw [iterate] at returned
      cases turned : runTurn program (config.withStepLimit none) (machine, log) with
      | inr found =>
          rw [turned, Option.some.injEq] at returned
          subst returned
          obtain ⟨idle, steps⟩ := of_runTurn_inr turned finished
          have same : runTurn program (config.withStepLimit (some limit)) (machine, log) =
              .inr found := by
            rw [runTurn_eq_of_admitted, turned]
            simp [idle]
          rw [steps, iterate, same]
          exact ⟨fun _ => rfl, fun excess => absurd within (Nat.not_le_of_lt excess)⟩
      | inl next =>
          rw [turned] at returned
          rcases next with ⟨next, nextLog⟩
          obtain ⟨pending, steps, id⟩ : machine.pending program = true ∧
              next.steps = machine.steps + 1 ∧ next.id = machine.id := of_runTurn_inl turned
          rcases Nat.lt_or_eq_of_le within with room | reached
          · have same : runTurn program (config.withStepLimit (some limit)) (machine, log) =
                .inl (next, nextLog) := by
              rw [runTurn_eq_of_admitted fun _ => room, turned]
            have left : limit - machine.steps = (limit - next.steps) + 1 := by omega
            rw [iterate, same, left, afterTurns?, turned, ← id]
            exact ih (steps ▸ room) returned
          · have counted : next.steps ≤ run.machine.steps :=
              steps_le_of_iterate returned finished
            rw [iterate, runTurn_eq_limited pending (Nat.le_of_eq reached.symm), reached,
              Nat.sub_self]
            refine ⟨fun fits => absurd (Nat.le_trans counted fits) ?_, fun _ =>
              ⟨_, rfl, reached, rfl⟩⟩
            rw [steps, reached]
            exact Nat.not_succ_le_self limit

end Machine

end ForkTape
