import ForkTape.Proofs.Pool.Members
import ForkTape.Proofs.Pool.Reachable

/-!
# Growth

A pool that goes on loses nothing: every machine stays among its machines and grows
(`Machine.Grows`), refusals are added behind those recorded, and the count of executed
instructions does not fall. `Pool.Grows` relates a pool in this way to the same pool later.

What of it shows in a report is `Report.Precedes`.
-/

namespace ForkTape

namespace Report

/-- What holds between a report and one of the same run given later. -/
structure Precedes (report later : Report) : Prop where
  results : ∀ result ∈ report.results, ∃ grown ∈ later.results,
    grown.id = result.id ∧ grown.parent = result.parent ∧
      result.children <+: grown.children ∧ result.output <+: grown.output ∧
      result.steps ≤ grown.steps
  refusals : report.refusals <+: later.refusals
  totalSteps : report.totalSteps ≤ later.totalSteps

end Report

namespace Pool

/-- What holds between a pool and the same pool later. -/
structure Grows (pool later : Pool) : Prop where
  machines : ∀ machine ∈ pool.members, ∃ grown ∈ later.members, machine.Grows grown
  refusals : pool.ledger.refusals.toList <+: later.ledger.refusals.toList
  globalSteps : pool.ledger.globalSteps ≤ later.ledger.globalSteps

namespace Grows

theorem refl (pool : Pool) : pool.Grows pool :=
  ⟨fun machine machineMem => ⟨machine, machineMem, .refl machine⟩, List.prefix_refl _,
    Nat.le_refl _⟩

theorem trans {pool later last : Pool} (first : pool.Grows later) (second : later.Grows last) :
    pool.Grows last where
  machines machine machineMem := by
    obtain ⟨middle, middleMem, grows⟩ := first.machines machine machineMem
    obtain ⟨grown, grownMem, growsOn⟩ := second.machines middle middleMem
    exact ⟨grown, grownMem, grows.trans growsOn⟩
  refusals := first.refusals.trans second.refusals
  globalSteps := Nat.le_trans first.globalSteps second.globalSteps

/-- The report of a pool that has grown tells more. -/
theorem report_precedes {pool later : Pool} (grows : pool.Grows later) :
    pool.report.Precedes later.report where
  results result resultMem := by
    obtain ⟨machine, machineMem, rfl⟩ := mem_results_iff.mp resultMem
    obtain ⟨grown, grownMem, machineGrows⟩ := grows.machines machine machineMem
    exact ⟨grown.result, mem_results_iff.mpr ⟨grown, grownMem, rfl⟩, machineGrows.id,
      machineGrows.parent, machineGrows.children, machineGrows.output, machineGrows.steps⟩
  refusals := grows.refusals
  totalSteps := grows.globalSteps

end Grows

theorem grows_retireHalted (pool : Pool) : pool.Grows pool.retireHalted where
  machines machine machineMem :=
    ⟨machine, pool.members_retireHalted.mem_iff.mpr machineMem, .refl machine⟩
  refusals := List.prefix_refl _
  globalSteps := Nat.le_refl _

variable {program : Program} {config : Config}

/-- A turn lets the pool grow. -/
theorem Round.Effect.grows {machine : Machine} {round after : Round}
    (effect : Effect config machine round after) :
    (round.putBack machine).toPool.Grows after.toPool := by
  have putBack := members_toPool_putBack machine round
  -- The machine that had the turn comes first on both sides; the others stay.
  have grown : ∃ births next rest, round.ledger.Continues after.ledger births ∧
      after.members.Perm (next :: rest) ∧ machine.Grows next ∧
      ∀ other ∈ round.members, other ∈ rest := by
    cases effect with
    | kept grows kin members books =>
        exact ⟨0, _, _, books, members, grows, fun _ otherMem => otherMem⟩
    | forked kin grows members books =>
        exact ⟨1, _, _, books, members, grows, fun _ otherMem => List.mem_cons_of_mem _ otherMem⟩
  obtain ⟨births, next, rest, books, members, grows, kept⟩ := grown
  refine ⟨?_, books.refusals, books.globalSteps⟩
  have perm := (members_toPool after).trans members
  intro other otherMem
  rcases List.mem_cons.mp (putBack.mem_iff.mp otherMem) with rfl | otherMem
  · exact ⟨next, perm.mem_iff.mpr List.mem_cons_self, grows⟩
  · exact ⟨other, perm.mem_iff.mpr (List.mem_cons_of_mem _ (kept other otherMem)), .refl other⟩

/-- Turns and the retiring of halted machines let a pool grow further. -/
theorem grows_kept (program : Program) (config : Config) (pool : Pool) :
    Kept program config pool.Grows where
  turn turned before := before.trans turned.effect.grows
  retire before := before.trans (grows_retireHalted _)

/-- What a run leaves has grown from what its first round left, and when that round ended in a
fault so did the run. -/
theorem run_succ_grows {fuel : Nat} {pool : Pool} {ending : Pool × Except Fault Unit}
    (undone : pool.isDone = false)
    (returned : pool.run program config (fuel + 1) = some ending) :
    (pool.sweep program config).1.Grows ending.1 ∧ ∀ value, ending.2 = .ok value →
      ∃ progressed, (pool.sweep program config).2 = .ok progressed := by
  rw [run_succ_of_not_isDone undone] at returned
  rcases swept : pool.sweep program config with ⟨next, outcome⟩
  rw [swept] at returned
  cases outcome with
  | error fault =>
      cases returned
      exact ⟨.refl _, by simp⟩
  | ok progressed =>
      refine ⟨?_, fun _ _ => ⟨progressed, rfl⟩⟩
      cases progressed with
      | false =>
          cases returned
          exact .refl _
      | true => exact (grows_kept program config next).run (.refl _) returned

end Pool

end ForkTape
