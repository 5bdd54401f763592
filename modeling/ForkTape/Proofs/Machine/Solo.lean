import ForkTape.Machine
import ForkTape.Proofs.Iteration
import ForkTape.Proofs.Machine.Exec

/-!
# Runs of a machine alone

What a machine does does not depend on the log of what it did. A run of a machine alone is
therefore an iteration on the machine only, to which the log is added afterwards (`soloTurn`).

The log tells one thing that the machine does not remember: which `fork`s it has passed. They
are those that it comes to one after the other (`passed_log_run`).
-/

namespace ForkTape.Machine

/-- One turn of a run without a log: the machine after it, or how the run has ended. -/
def soloTurn (program : Program) (config : Config) (machine : Machine) :
    Machine ⊕ (Machine × Except Fault Unit) :=
  match machine.step program config with
  | ⟨next, .ok true, _⟩ => .inl next
  | ⟨next, .ok false, _⟩ => .inr (next, .ok ())
  | ⟨next, .error fault, _⟩ => .inr (next, .error fault)

/-- How a run ended, without its log. -/
def Run.ending (run : Run) : Machine × Except Fault Unit := (run.machine, run.outcome)

theorem soloTurn_eq_map_runTurn (program : Program) (config : Config)
    (state : Machine × Array Event) :
    soloTurn program config state.1 =
      (runTurn program config state).map Prod.fst Run.ending := by
  rcases state with ⟨machine, log⟩
  simp only [soloTurn, runTurn]
  rcases machine.step program config with ⟨next, outcome, event?⟩
  cases outcome with
  | error fault => rfl
  | ok continues => cases continues <;> rfl

/-- A run without its log is the iteration of turns without a log. -/
theorem map_ending_run (program : Program) (config : Config) (fuel : Nat) (machine : Machine) :
    (machine.run program config fuel).map Run.ending =
      iterate (soloTurn program config) fuel machine :=
  (iterate_map Prod.fst Run.ending (soloTurn_eq_map_runTurn program config) fuel
    (machine, #[])).symm

/-- The runs that end in a given way. -/
theorem exists_run_iff_answers {program : Program} {config : Config} {machine final : Machine}
    {outcome : Except Fault Unit} :
    (∃ fuel run, machine.run program config fuel = some run ∧ run.machine = final ∧
      run.outcome = outcome) ↔ Answers (soloTurn program config) machine (final, outcome) := by
  constructor
  · rintro ⟨fuel, run, returned, rfl, rfl⟩
    refine ⟨fuel, ?_⟩
    rw [← map_ending_run, returned]
    rfl
  · rintro ⟨fuel, answered⟩
    rw [← map_ending_run, Option.map_eq_some_iff] at answered
    obtain ⟨run, returned, endingEq⟩ := answered
    cases endingEq
    exact ⟨fuel, run, returned, rfl, rfl⟩

/-! ## The forks a machine passes -/

/-- The indices of the `fork`s that a machine running alone executes, one after the other, in at
most `fuel` turns. -/
def forkSites (program : Program) (config : Config) : Nat → Machine → List Nat
  | 0, _ => []
  | fuel + 1, machine =>
      match machine.exec program config with
      | ⟨next, .ok .advanced, _⟩ => forkSites program config fuel next
      | ⟨next, .ok .atFork, _⟩ => next.ip :: forkSites program config fuel next.passFork
      | _ => []

/-- The index of the `fork` that the event says was passed. -/
def passedFork? : Event → Option Nat
  | .forkIgnored _ ip => some ip
  | _ => none

/-- The indices of the `fork`s that the log says were passed. -/
def passed (log : Array Event) : List Nat := log.toList.filterMap passedFork?

/-- The log with the event that a turn caused, if it caused one. -/
def logAny (event? : Option Event) (log : Array Event) : Array Event :=
  match event? with
  | some event => log.push event
  | none => log

theorem passed_push (event : Event) (log : Array Event) :
    passed (log.push event) = passed log ++ (passedFork? event).toList := by
  cases found : passedFork? event <;> simp [passed, found]

theorem passed_logAny {event? : Option Event}
    (effect : ∀ event, event? = some event → event.isEffect = true) (log : Array Event) :
    passed (logAny event? log) = passed log := by
  cases event? with
  | none => rfl
  | some event =>
      have found := effect event rfl
      rw [logAny, passed_push]
      cases event <;> first | exact List.append_nil _ | contradiction

theorem passed_log_iterate {program : Program} {config : Config} {fuel : Nat}
    {machine : Machine} {log : Array Event} {run : Run}
    (returned : iterate (runTurn program config) fuel (machine, log) = some run) :
    passed run.log = passed log ++ forkSites program config fuel machine := by
  induction fuel generalizing machine log with
  | zero => simp [iterate] at returned
  | succ fuel ih =>
      rcases executed : machine.exec program config with ⟨next, outcome, event?⟩
      have effect : ∀ event, event? = some event → event.isEffect = true :=
        fun _ => (executes_of_exec executed).event_isEffect
      cases outcome with
      | error fault =>
          simp only [iterate, runTurn, step, executed] at returned
          cases returned
          rw [forkSites, executed, List.append_nil]
          exact passed_logAny effect log
      | ok progress =>
          cases progress with
          | advanced =>
              simp only [iterate, runTurn, step, executed] at returned
              rw [forkSites, executed, ih returned]
              exact congrArg (· ++ _) (passed_logAny effect log)
          | halted =>
              simp only [iterate, runTurn, step, executed] at returned
              cases returned
              rw [forkSites, executed, List.append_nil]
              exact passed_logAny effect log
          | atFork =>
              simp only [iterate, runTurn, step, executed] at returned
              rw [forkSites, executed, ih returned, passed_push, List.append_assoc]
              rfl

/-- The log of a run tells of the `fork`s that the machine has executed, in order. -/
theorem passed_log_run {program : Program} {config : Config} {fuel : Nat} {machine : Machine}
    {run : Run} (returned : machine.run program config fuel = some run) :
    passed run.log = forkSites program config fuel machine :=
  passed_log_iterate returned

end ForkTape.Machine
