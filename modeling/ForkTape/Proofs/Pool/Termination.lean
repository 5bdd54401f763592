import ForkTape.Proofs.Pool.Finality
import ForkTape.Proofs.Pool.Registry

/-!
# Runs come to an end

A round without a fault in which nobody executes an instruction lets everybody halt, and nobody is
forked off in it, so it leaves an empty registry (`busy_or_empty`). Every other round without a
fault uses up some of the instructions that the global limit admits. So whatever the machines do,
a run under a global limit returns after as many rounds as there are instructions left, and one
more (`run_within`).

A run that does not end in a fault has gone on until all machines have halted. None of them is
still registered then: the registry holds machines that have halted only after a fault, and then
it also holds one that runs and is barred (`live_or_stuck`).
-/

namespace ForkTape.Pool

variable {program : Program} {config : Config} {input : Input} {pool next after : Pool}
  {progressed : Bool} {fuel : Nat}

/-! ## Rounds that execute nothing -/

/-- Machines that have no instruction to execute halt when they have their turns, and nothing else
changes but the log. -/
theorem Round.turns_of_idle (config : Config) {waiting : List Machine}
    (idle : ∀ machine ∈ waiting, machine.pending program = false)
    (visited born : List Machine) (ledger : Ledger) (progressed : Bool) :
    ∃ log progressed', Round.turns program config waiting.length
        ⟨visited, waiting, born, ledger, progressed⟩ =
      .ok ⟨(waiting.map Machine.halt).reverse ++ visited, [], born, { ledger with log := log },
        progressed'⟩ := by
  induction waiting generalizing visited ledger progressed with
  | nil => exact ⟨_, _, rfl⟩
  | cons machine waiting ih =>
      rw [List.forall_mem_cons] at idle
      obtain ⟨log, _, ended⟩ := (Round.turned program config machine
        ⟨visited, waiting, born, ledger, progressed⟩).eq_of_idle idle.1
      obtain ⟨last, progressed', rest⟩ := ih idle.2 (machine.halt :: visited)
        { ledger with log := log } _
      refine ⟨last, progressed', ?_⟩
      rw [List.length_cons, turns, ended]
      simpa using rest

/-- In a round in which nobody has an instruction to execute, all machines halt and leave the
registry. -/
theorem sweep_of_idle (config : Config)
    (idle : ∀ machine ∈ pool.registered, machine.pending program = false) :
    ∃ log progressed, pool.sweep program config =
      (⟨[], { pool.ledger with
        retired := pool.ledger.retired ++ pool.registered.map Machine.halt
        log := log }⟩, .ok progressed) := by
  obtain ⟨log, progressed, turned⟩ :=
    Round.turns_of_idle config idle [] [] pool.ledger false
  have halted : (pool.registered.map Machine.halt).filter Machine.halted =
      pool.registered.map Machine.halt :=
    List.filter_eq_self.mpr (by simp [Machine.halt])
  refine ⟨log, progressed, ?_⟩
  rw [sweep, Round.start, turned]
  simp [Round.toPool, retireHalted, Ledger.retire, halted, Machine.halt]

/-- A turn without a fault is counted, or it leaves a halted machine and no other. -/
theorem Round.Turned.busy_or_idle {machine : Machine} {round after : Round}
    (turned : Turned program config machine round (.ok after)) :
    round.ledger.globalSteps < after.ledger.globalSteps ∨
      after.ledger.globalSteps = round.ledger.globalSteps ∧
        after.visited = machine.halt :: round.visited ∧ after.born = round.born := by
  cases pending : machine.pending program with
  | true =>
      left
      have counted := turned.globalSteps_eq
      simp only [left, Except.isOk, Except.toBool, pending, Bool.and_self, if_true] at counted
      rw [counted]
      exact Nat.lt_succ_self _
  | false =>
      right
      obtain ⟨log, progressed, ended⟩ := turned.eq_of_idle pending
      cases ended
      exact ⟨rfl, rfl, rfl⟩

/-- In a round without a fault somebody executes an instruction, or nobody is left in the
registry. -/
theorem busy_or_empty (swept : pool.sweep program config = (next, .ok progressed)) :
    pool.ledger.globalSteps < next.ledger.globalSteps ∨ next.registered = [] := by
  have ends : SweepEnds program config
      (fun moves round => Attended program config pool moves round ∧
        (pool.ledger.globalSteps < round.ledger.globalSteps ∨
          round.born = [] ∧ ∀ machine ∈ round.visited, machine.halted = true))
      pool (pool.sweep program config) := by
    apply sweepEnds
    · rintro moves machine round after ⟨attended, before⟩ ended
      refine ⟨attended.turn ended, ?_⟩
      have turned := Round.turned program config machine round
      rw [ended] at turned
      rcases turned.busy_or_idle with busy | ⟨same, visited, born⟩
      · exact .inl (Nat.lt_of_le_of_lt attended.globalSteps busy)
      · rw [same, visited, born, List.forall_mem_cons]
        exact before.imp_right fun ⟨nobody, halted⟩ => ⟨nobody, rfl, halted⟩
    · exact ⟨.start program config pool, .inr ⟨rfl, by simp [Round.start]⟩⟩
  rw [swept] at ends
  cases ends with
  | finished kept turned =>
      obtain ⟨attended, busy | ⟨nobody, halted⟩⟩ := kept
      · exact .inl busy
      · right
        simpa [retireHalted, Round.toPool, attended.waiting_eq_nil turned, nobody] using halted

/-! ## Runs under a global limit -/

theorem isDone_of_registered_eq_nil (empty : pool.registered = []) : pool.isDone = true := by
  simp [isDone, empty]

/-- A run returns when the global limit admits at most `rest` more instructions. -/
theorem run_within {limit : Nat} (limited : config.maxGlobalSteps = some limit) {rest : Nat}
    (within : pool.ledger.globalSteps ≤ limit) (enough : limit ≤ pool.ledger.globalSteps + rest) :
    ∃ ending, pool.run program config (rest + 2) = some ending ∧
      (pool.rounds program config (rest + 2)).length ≤ rest + 1 := by
  induction rest using Nat.strongRecOn generalizing pool with
  | ind rest ih =>
      cases undone : pool.isDone with
      | true =>
          rw [run_succ_of_isDone undone, rounds, if_pos undone]
          exact ⟨_, rfl, Nat.zero_le _⟩
      | false =>
          rw [run_succ_of_not_isDone undone, rounds, if_neg (Bool.eq_false_iff.mp undone)]
          have nextWithin := (globalSteps_le_kept program limited).sweep within
          rcases swept : pool.sweep program config with ⟨next, outcome⟩
          rw [swept] at nextWithin
          change next.ledger.globalSteps ≤ limit at nextWithin
          cases outcome with
          | error fault => exact ⟨_, rfl, by simp⟩
          | ok progressed =>
              cases progressed with
              | false => exact ⟨_, rfl, by simp⟩
              | true =>
                  rcases busy_or_empty swept with busy | empty
                  · -- The round has used up some of the instructions that were left.
                    obtain ⟨less, rfl⟩ : ∃ less, rest = less + 1 :=
                      Nat.exists_eq_succ_of_ne_zero (by omega)
                    obtain ⟨ending, returned, rounds⟩ :=
                      ih less (Nat.lt_succ_self less) nextWithin (by omega)
                    exact ⟨ending, returned, Nat.succ_le_succ rounds⟩
                  · have done := isDone_of_registered_eq_nil empty
                    exact ⟨_, run_succ_of_isDone done rest, by simp [rounds, done]⟩

/-! ## What a run leaves -/

/-- A pool that is not done makes progress in a round without a fault. -/
theorem progressed_of_not_isDone (undone : pool.isDone = false)
    (swept : pool.sweep program config = (next, .ok progressed)) : progressed = true := by
  obtain ⟨machine, machineMem, live⟩ := List.all_eq_false.mp undone
  exact (progressed_iff_of_swept swept).mpr ⟨machine, machineMem, Bool.eq_false_iff.mpr live⟩

/-- The rounds of a run begin with pools that are not done. -/
theorem isDone_of_mem_rounds {later : Pool} (laterMem : later ∈ pool.rounds program config fuel) :
    later.isDone = false := by
  induction fuel generalizing pool with
  | zero => simp [rounds] at laterMem
  | succ fuel ih =>
      cases undone : pool.isDone with
      | true => simp [rounds, undone] at laterMem
      | false =>
          rw [rounds, if_neg (Bool.eq_false_iff.mp undone)] at laterMem
          rcases List.mem_cons.mp laterMem with rfl | laterMem
          · exact undone
          · split at laterMem
            · exact ih laterMem
            · contradiction

/-- A run that does not end in a fault goes on with the next round when the pool is not done. -/
theorem run_advance (undone : pool.isDone = false)
    (returned : pool.run program config fuel = some (after, .ok ())) :
    ∃ rest, fuel = rest + 1 ∧ (pool.sweep program config).2 = .ok true ∧
      (pool.sweep program config).1.run program config rest = some (after, .ok ()) ∧
      pool.rounds program config fuel =
        pool :: (pool.sweep program config).1.rounds program config rest := by
  cases fuel with
  | zero => simp [run, iterate] at returned
  | succ rest =>
      rw [run_succ_of_not_isDone undone] at returned
      rcases swept : pool.sweep program config with ⟨next, outcome⟩
      rw [swept] at returned
      cases outcome with
      | error fault => cases returned
      | ok progressed =>
          obtain rfl := progressed_of_not_isDone undone swept
          refine ⟨rest, rfl, rfl, returned, ?_⟩
          rw [rounds, if_neg (Bool.eq_false_iff.mp undone), swept]

/-- A run of a pool that is done plays no round. -/
theorem run_stop {outcome : Except Fault Unit} (done : pool.isDone = true)
    (returned : pool.run program config fuel = some (after, outcome)) :
    after = pool ∧ pool.rounds program config fuel = [] := by
  cases fuel with
  | zero => simp [run, iterate] at returned
  | succ rest =>
      rw [run_succ_of_isDone done] at returned
      cases returned
      exact ⟨rfl, if_pos done⟩

/-- A run that does not end in a fault leaves a pool that is done. -/
theorem isDone_of_run (returned : pool.run program config fuel = some (after, .ok ())) :
    after.isDone = true := by
  induction fuel generalizing pool with
  | zero => simp [run, iterate] at returned
  | succ fuel ih =>
      cases undone : pool.isDone with
      | true =>
          obtain ⟨rfl, _⟩ := run_stop undone returned
          exact undone
      | false =>
          obtain ⟨rest, same, _, returned, _⟩ := run_advance undone returned
          obtain rfl := Nat.succ.inj same
          exact ih returned

/-- In a reachable pool everybody in the registry runs, or somebody is barred. -/
theorem live_or_stuck (reachable : Reachable program config input pool) :
    (∀ machine ∈ pool.registered, machine.halted = false) ∨ pool.Stuck program config := by
  apply reachable.leads_initial.induction
  · exact .inl (tidy_initial config input).live
  · intro pool _
    rcases swept : pool.sweep program config with ⟨next, outcome⟩
    cases outcome with
    | error fault => exact .inr (stuck_of_fault swept).2
    | ok progressed => exact .inl (live_of_swept swept)

/-- The registry of a reachable pool that is done is empty. -/
theorem registered_eq_nil_of_isDone (reachable : Reachable program config input pool)
    (done : pool.isDone = true) : pool.registered = [] := by
  rcases live_or_stuck reachable with live | stuck
  · apply List.eq_nil_iff_forall_not_mem.mpr
    intro machine machineMem
    have halted := List.all_eq_true.mp done machine machineMem
    rw [live machine machineMem] at halted
    contradiction
  · rw [stuck.isDone_eq_false] at done
    contradiction

/-- Some machine runs exactly when one of the registry does. -/
theorem exists_live_iff (retired : pool.RetiredHalted) :
    (∃ machine ∈ pool.machines, machine.halted = false) ↔
      ∃ machine ∈ pool.registered, machine.halted = false := by
  constructor
  · rintro ⟨machine, machineMem, live⟩
    rcases List.mem_append.mp (pool.machines_perm_members.mem_iff.mp machineMem) with
      gone | registered
    · exact absurd (retired machine gone) (Bool.eq_false_iff.mp live)
    · exact ⟨machine, registered, live⟩
  · rintro ⟨machine, machineMem, live⟩
    have member := pool.machines_perm_members.mem_iff.mpr (List.mem_append_right _ machineMem)
    exact ⟨machine, member, live⟩

/-- How the rounds and runs of a pool come to an end. -/
structure Ends (program : Program) (config : Config) (pool : Pool) : Prop where
  /-- A run returns after as many rounds as the global limit admits instructions, and one more. -/
  returns : ∀ limit, config.maxGlobalSteps = some limit →
    pool.ledger.globalSteps ≤ limit ∧
      ∃ ending, pool.run program config (limit - pool.ledger.globalSteps + 2) = some ending ∧
        (pool.rounds program config (limit - pool.ledger.globalSteps + 2)).length ≤
          limit - pool.ledger.globalSteps + 1
  /-- A round without a fault reports progress exactly when some machine ran before it. -/
  progress : ∀ next progressed, pool.sweep program config = (next, .ok progressed) →
    (progressed = true ↔ ∃ machine ∈ pool.machines, machine.halted = false)
  /-- So no round of a run reports that nobody had a turn. -/
  advances : ∀ fuel, ∀ later ∈ pool.rounds program config fuel,
    (later.sweep program config).2 ≠ .ok false
  /-- A run without a fault goes on until everybody has halted and left the registry. -/
  halts : ∀ fuel after, pool.run program config fuel = some (after, .ok ()) →
    after.registered = [] ∧ ∀ result ∈ after.report.results, result.halted = true

/-- From every pool that rounds and runs have led to, whether or not they ended in a fault, rounds
and runs come to an end. -/
theorem ends_of_reachable (reachable : Reachable program config input pool) :
    Ends program config pool := by
  constructor
  · intro limit limited
    have within : pool.ledger.globalSteps ≤ limit :=
      (globalSteps_le_kept program limited).of_reachable (Nat.zero_le limit) reachable
    exact ⟨within, run_within limited within (Nat.le_of_eq (Nat.add_sub_cancel' within).symm)⟩
  · intro next progressed swept
    rw [progressed_iff_of_swept swept, exists_live_iff (retiredHalted_of_reachable reachable)]
  · intro fuel later laterMem idle
    have undone := isDone_of_mem_rounds laterMem
    have progressed := progressed_of_not_isDone undone (Prod.ext rfl idle)
    contradiction
  · intro fuel after returned
    have reachableAfter : Reachable program config input after := .run reachable returned
    have empty := registered_eq_nil_of_isDone reachableAfter (isDone_of_run returned)
    refine ⟨empty, ?_⟩
    intro result resultMem
    obtain ⟨machine, machineMem, rfl⟩ := mem_results_iff.mp resultMem
    rw [members, empty, List.append_nil] at machineMem
    exact retiredHalted_of_reachable reachableAfter machine machineMem

/-- The limit of four instructions for all machines. -/
def fourTogether : Config where
  maxGlobalSteps := some 4

/-- The child of the first machine goes on forever. When one instruction is left to all machines, a
run returns after two rounds at most. -/
theorem forkLoop_ends :
    ∃ pool, Reachable forkLoop fourTogether ⟨[]⟩ pool ∧ pool.ledger.globalSteps = 3 ∧
      (pool.registered.map Machine.halted) = [false, false] ∧
      Ends forkLoop fourTogether pool := by
  have reachable : Reachable forkLoop fourTogether ⟨[]⟩ _ := .sweep (.sweep .initial)
  exact ⟨_, reachable, rfl, rfl, ends_of_reachable reachable⟩

end ForkTape.Pool
