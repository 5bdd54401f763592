import ForkTape.Proofs.Pool.Growth
import ForkTape.Proofs.Pool.Lineage

/-!
# Later reports

A report is an account of a run so far, and a later one goes on with it: no machine is lost, what
a machine has written stays written, and what is reported of a machine that has halted is reported
of it ever after. This holds across rounds and runs that end in a fault, after which machines that
have halted stay in the registry, as well as across those that retire them.

It is what the growth of a pool (`Pool.Grows`) comes to when the machines are looked up in its
reports by their ids.
-/

namespace ForkTape

/-- What holds between a result of a machine and a later result of it. -/
structure Machine.Result.Continues (result later : Machine.Result) : Prop where
  id : later.id = result.id
  parent : later.parent = result.parent
  children : result.children <+: later.children
  output : result.output <+: later.output
  steps : result.steps ≤ later.steps
  /-- The result of a machine that has halted is final. -/
  final : result.halted = true → later = result

/-- The result of a machine that grows is continued. -/
theorem Machine.Grows.result_continues {machine later : Machine} (grows : machine.Grows later) :
    machine.result.Continues later.result where
  id := grows.id
  parent := grows.parent
  children := grows.children
  output := grows.output
  steps := grows.steps
  final halted := congrArg Machine.result (grows.halted halted)

/-- What holds between a report and a later report of the same run. -/
structure Report.Continues (report later : Report) : Prop where
  /-- Whoever is reported is found in the later report under the same id. -/
  results : ∀ result ∈ report.results, ∃ grown, later.find? result.id = some grown ∧
    result.Continues grown
  refusals : report.refusals <+: later.refusals
  totalSteps : report.totalSteps ≤ later.totalSteps

namespace Pool

variable {program : Program} {config : Config} {input : Input} {pool later : Pool}

/-- The report of a pool that has grown goes on, when ids are told apart. -/
theorem Grows.report_continues (grows : pool.Grows later)
    (tells : later.ledger.Tells later.members) : pool.report.Continues later.report where
  results := by
    intro result resultMem
    obtain ⟨machine, machineMem, rfl⟩ := mem_results_iff.mp resultMem
    obtain ⟨grown, grownMem, machineGrows⟩ := grows.machines machine machineMem
    have found := find?_report tells grownMem
    rw [machineGrows.id] at found
    exact ⟨grown.result, found, machineGrows.result_continues⟩
  refusals := grows.refusals
  totalSteps := grows.globalSteps

/-- Whatever rounds and runs lead from a pool to a later one, and whether or not they end in a
fault, the report of the later pool goes on with that of the earlier. -/
theorem report_continues_of_leads (reachable : Reachable program config input pool)
    (leads : Leads program config pool later) : pool.report.Continues later.report := by
  have grows : pool.Grows later := (grows_kept program config pool).leads (.refl pool) leads
  have tells := tells_of_reachable (reachable.leads leads)
  exact grows.report_continues tells

/-- The program whose machines fork, write what they find, and loop unless they find one. -/
def forkWriteLoop : Program where
  instructions := #[.fork, .output, .dec, .loopOpen, .output, .loopClose]
  offsets := #[0, 4, 5, 6, 7, 8]
  pairing := ⟨#[none, none, none, some 5, none, some 3]⟩
  paired := rfl

/-- After five rounds the first machine has halted, having written the marker of its child. The
child goes on writing until a run ends at the global limit. -/
theorem forkWriteLoop_continues :
    ∃ pool later, Reachable forkWriteLoop { maxGlobalSteps := some 10 } ⟨[]⟩ pool ∧
      Leads forkWriteLoop { maxGlobalSteps := some 10 } pool later ∧
      (pool.members.map fun machine => (machine.halted, machine.output)) =
        [(true, #[1]), (false, #[0, 255])] ∧
      (later.members.map fun machine => (machine.halted, machine.output)) =
        [(true, #[1]), (false, #[0, 255, 255])] ∧
      pool.report.Continues later.report := by
  have reachable : Reachable forkWriteLoop { maxGlobalSteps := some 10 } ⟨[]⟩ _ :=
    .sweep (.sweep (.sweep (.sweep (.sweep .initial))))
  have leads {pool : Pool} {ending : Pool × Except Fault Unit}
      (returned : pool.run forkWriteLoop { maxGlobalSteps := some 10 } 3 = some ending) :
      Leads forkWriteLoop { maxGlobalSteps := some 10 } pool ending.1 := .run .refl returned
  exact ⟨_, _, reachable, leads rfl, by decide +kernel, by decide +kernel,
    report_continues_of_leads reachable (leads rfl)⟩

end Pool

end ForkTape
