import ForkTape.CommandLine.Session
import ForkTape.Proofs.CommandLine.FileTree
import ForkTape.Proofs.CommandLine.Options
import ForkTape.Proofs.Execution.Reported

/-!
# What a session prints, writes and answers

A session whose options ask for a run, and which can read its files, loads and runs its program.
What it prints is the report of the run. When the run succeeds the report is also written to the
file asked for, from where it is read back as the same report, and the exit code is 0; when a fault
has ended the run no file is written and the exit code is 1 (`Succeeds`, `Fails`).

Without a global limit and with room for one machine the session can as well run its machine alone:
it prints the same and has the same exit code, and differs only in the refusals that it reports
(`Execution.DifferInRefusals`).
-/

namespace ForkTape.CommandLine.Session

/-- A session that comes to running a program. It shows neither instructions nor a listing, its
files can be read, and its source text loads. -/
structure Ready (tree : FileTree) (options : Options) (source : String) (program : Program)
    (input : Input) : Prop where
  tokens : options.tokens = false
  listing : options.listing = false
  sourceRead : readSource tree.read options.file = .ok source
  loaded : Program.load source options.settings.spelling = .ok program
  inputRead : readInput tree.read options.input = .ok input

/-- What is left of a session after its report has been written or could not be. -/
def settle (tree : FileTree) (outcome : Outcome) : Outcome × FileTree :=
  match outcome.report? with
  | none => (outcome, tree)
  | some (path, bytes) =>
      match tree.write path bytes with
      | .ok tree => (outcome.afterWriting (.ok ()), tree)
      | .error error => (outcome.afterWriting (.error error), tree)

variable {tree after : FileTree} {options : Options} {source : String} {program : Program}
  {input : Input} {fuel : Nat} {outcome : Outcome}

/-- A session that is ready prints what the execution of its program comes to. -/
theorem Ready.runIn_eq (ready : Ready tree options source program input) (fuel : Nat) :
    runIn fuel tree options = (execution fuel options source input).map fun execution =>
      settle tree (.ofExecution options.report execution) := by
  obtain ⟨tokens, listing, sourceRead, _, inputRead⟩ := ready
  have outcome_eq : Session.outcome fuel tree.read options =
      (execution fuel options source input).map (.ofExecution options.report) := by
    simp only [Session.outcome, sourceRead, inputRead, tokens, listing, Bool.false_eq_true,
      if_false]
  rw [runIn, outcome_eq, Option.map_map]
  rfl

/-- The execution of a session is that of its program, in a pool or alone. -/
theorem Ready.execution_eq (ready : Ready tree options source program input) (fuel : Nat) :
    execution fuel options source input =
      if options.single then
        (Execution.ofProgramAlone fuel program input options.settings.pool.machine).map
          Execution.withReport
      else Execution.ofProgram fuel program input options.settings.pool := by
  simp only [execution, execute, executeAlone, ready.loaded]
  rfl

/-- How the execution of a session ends. -/
theorem Ready.concludes (ready : Ready tree options source program input)
    {execution : Execution Report} (size : source.length < 2 ^ 64)
    (budget : options.settings.pool.maxLive < 2 ^ 64)
    (returned : Session.execution fuel options source input = some execution) :
    Execution.Concludes execution.answer := by
  have size : program.size < 2 ^ 64 :=
    Nat.lt_of_le_of_lt (Program.size_le_of_load ready.loaded) size
  rw [ready.execution_eq] at returned
  split at returned
  · obtain ⟨alone, returnedAlone, rfl⟩ := Option.map_eq_some_iff.mp returned
    exact Execution.concludes_of_ofProgramAlone returnedAlone size
  · exact Execution.concludes_of_ofProgram returned size budget

/-! ## What a session comes to -/

/-- What a session comes to when its run has succeeded with the given report. -/
structure Succeeds (tree : FileTree) (path? : Option String) (report : Report) (outcome : Outcome)
    (after : FileTree) : Prop where
  printed : outcome.printed = report.printed
  code : outcome.code = 0
  /-- No file is written where none is asked for. -/
  unasked : path? = none → after = tree
  /-- The file that is asked for is written, and it is read back as the report that is printed.
  Nothing can be read from a device. -/
  written : ∀ path ∈ path?, ∃ bytes, outcome.report? = some (path, bytes) ∧
    tree.write path bytes = .ok after ∧
    (tree.NamesFile path → after.read path = .ok bytes ∧ after.shown = tree.shown) ∧
    (report.InRange → Report.ofBytes bytes = .ok report)

/-- What a session comes to when a fault has ended its run, which had produced the given report. -/
structure Fails (tree : FileTree) (report : Report) (outcome : Outcome) (after : FileTree) :
    Prop where
  printed : outcome.printed = report.printed
  code : outcome.code = 1
  /-- No file is written. -/
  unwritten : outcome.report? = none ∧ after = tree

variable {path? : Option String} {execution : Execution Report} {report : Report}

/-- A session prints a report that it can write and that fits the binary form. -/
theorem succeeds_settle (answered : execution.answer = .ok report)
    (writable : ∀ path ∈ path?, ∀ bytes, ∃ after, tree.write path bytes = .ok after)
    (fits : report.InRange → report.Fits) :
    Succeeds tree path? report (settle tree (.ofExecution path? execution)).1
      (settle tree (.ofExecution path? execution)).2 := by
  have outcome_eq : Outcome.ofExecution path? execution =
      ⟨report.printed, none, path?.map fun path => (path, report.toBytes), execution.log⟩ := by
    rw [Outcome.ofExecution, answered]
  rw [outcome_eq]
  cases path? with
  | none => exact ⟨rfl, rfl, fun _ => rfl, by simp⟩
  | some path =>
      obtain ⟨after, written⟩ := writable path rfl report.toBytes
      simp only [settle, Option.map_some, written]
      refine ⟨rfl, rfl, by simp, ?_⟩
      rintro _ ⟨⟩
      refine ⟨report.toBytes, rfl, written, fun file => ?_, fun inRange => ?_⟩
      · exact ⟨FileTree.read_of_write file written, FileTree.shown_of_write file written⟩
      · simpa using Report.ofBytes_toBytes_append (fits inRange) []

/-- A session that fails prints the report of what had been produced. -/
theorem fails_settle {fault : Fault}
    (answered : execution.answer = .error (.aborted fault report)) :
    Fails tree report (settle tree (.ofExecution path? execution)).1
      (settle tree (.ofExecution path? execution)).2 := by
  have outcome_eq : Outcome.ofExecution path? execution =
      ⟨report.printed, some (.failure (.aborted fault report)), none, execution.log⟩ := by
    rw [Outcome.ofExecution, answered]
    rfl
  rw [outcome_eq]
  exact ⟨rfl, rfl, rfl, rfl⟩

/-! ## One machine in a pool and alone -/

theorem printed_settle (tree : FileTree) (outcome : Outcome) :
    (settle tree outcome).1.printed = outcome.printed := by
  rw [settle]
  split
  · rfl
  · split <;> rfl

theorem code_congr {other : Outcome} (errors : outcome.error?.isSome = other.error?.isSome) :
    outcome.code = other.code := by
  rw [Outcome.code, Outcome.code]
  cases found : outcome.error? <;> cases otherFound : other.error? <;> simp_all

/-- The exit code tells whether there was an error and whether a report could be written. What the
report says does not matter. -/
theorem code_settle_congr {other : Outcome} (errors : outcome.error?.isSome = other.error?.isSome)
    (paths : outcome.report?.map Prod.fst = other.report?.map Prod.fst) :
    (settle tree outcome).1.code = (settle tree other).1.code := by
  rw [settle, settle]
  cases asked : outcome.report? with
  | none =>
      rw [asked] at paths
      rw [Option.map_eq_none_iff.mp paths.symm]
      exact code_congr errors
  | some file =>
      rw [asked] at paths
      obtain ⟨otherFile, otherAsked, path_eq⟩ := Option.map_eq_some_iff.mp paths.symm
      rcases file with ⟨path, bytes⟩
      rcases otherFile with ⟨otherPath, otherBytes⟩
      obtain rfl : otherPath = path := path_eq
      have same := tree.map_write otherPath bytes otherBytes
      rw [otherAsked]
      dsimp only
      cases written : tree.write otherPath bytes <;>
        cases otherWritten : tree.write otherPath otherBytes <;>
        rw [written, otherWritten] at same
      · rfl
      · contradiction
      · contradiction
      · exact code_congr errors

theorem printed_ofExecution (path? : Option String) (execution : Execution Report) :
    (Outcome.ofExecution path? execution).printed =
      (execution.report?.map Report.printed).getD [] := by
  rw [Outcome.ofExecution, Execution.report?]
  cases execution.answer with
  | ok report => rfl
  | error failure => cases failure <;> rfl

theorem isSome_error?_ofExecution (path? : Option String) (execution : Execution Report) :
    (Outcome.ofExecution path? execution).error?.isSome = !execution.answer.isOk := by
  rw [Outcome.ofExecution]
  cases execution.answer <;> rfl

theorem paths_ofExecution (path? : Option String) (execution : Execution Report) :
    (Outcome.ofExecution path? execution).report?.map Prod.fst =
      if execution.answer.isOk then path? else none := by
  rw [Outcome.ofExecution]
  cases execution.answer with
  | ok report => cases path? <;> rfl
  | error failure => rfl

/-- Executions that differ in the refusals they report come to sessions that do not differ in what
they print and in their exit codes. -/
theorem settle_congr {budget : Nat} {sites : List Nat} {other : Execution Report}
    (differ : execution.DifferInRefusals budget sites other) :
    (settle tree (.ofExecution path? execution)).1.printed =
        (settle tree (.ofExecution path? other)).1.printed ∧
      (settle tree (.ofExecution path? execution)).1.code =
        (settle tree (.ofExecution path? other)).1.code := by
  obtain ⟨ends, report, otherReport, reported, otherReported, _, printed, _⟩ := differ
  constructor
  · rw [printed_settle, printed_settle, printed_ofExecution, printed_ofExecution, reported,
      otherReported, Option.map_some, Option.map_some, printed]
  · apply code_settle_congr
    · rw [isSome_error?_ofExecution, isSome_error?_ofExecution, ends]
    · rw [paths_ofExecution, paths_ofExecution, ends]

/-- A session is as ready to run one machine alone. -/
theorem Ready.alone (ready : Ready tree options source program input) :
    Ready tree { options with single := true } source program input :=
  ⟨ready.tokens, ready.listing, ready.sourceRead, ready.loaded, ready.inputRead⟩

/-- Without a global limit and with room for one machine a session returns when one that runs the
machine alone does. -/
theorem Ready.exists_runIn_iff (ready : Ready tree options source program input)
    (pooled : options.single = false)
    (unlimited : options.settings.pool.maxGlobalSteps = none)
    (small : options.settings.pool.maxLive ≤ 1) :
    (∃ fuel ending, runIn fuel tree options = some ending) ↔
      ∃ fuel ending, runIn fuel tree { options with single := true } = some ending := by
  have returns {α β : Type} (answer? : Option α) (settled : α → β) :
      (∃ ending, answer?.map settled = some ending) ↔ ∃ answer, answer? = some answer := by
    cases answer? <;> simp
  simp only [ready.runIn_eq, ready.alone.runIn_eq, ready.execution_eq, ready.alone.execution_eq,
    pooled, Bool.false_eq_true, if_false, if_true, Option.map_map, returns]
  exact Execution.exists_ofProgram_iff (.inl small) unlimited

/-- Without a global limit and with room for one machine, the execution of a session differs from
one alone in the refusals it reports. -/
theorem Ready.differInRefusals (ready : Ready tree options source program input)
    (pooled : options.single = false)
    (unlimited : options.settings.pool.maxGlobalSteps = none)
    (small : options.settings.pool.maxLive ≤ 1) {aloneFuel : Nat} {alone : Execution Report}
    (returned : Session.execution fuel options source input = some execution)
    (returnedAlone : Session.execution aloneFuel { options with single := true } source input =
      some alone) :
    execution.DifferInRefusals options.settings.pool.maxLive
      (forkSites aloneFuel source input options.settings) alone := by
  rw [ready.execution_eq, pooled, if_neg Bool.false_ne_true] at returned
  rw [ready.alone.execution_eq, if_pos rfl] at returnedAlone
  obtain ⟨result, answered, rfl⟩ := Option.map_eq_some_iff.mp returnedAlone
  rw [forkSites, ready.loaded]
  exact Execution.ofProgram_differInRefusals (.inl small) unlimited returned answered

/-- A session that comes to running a program prints what the run reports. If the run succeeds and
its report can be written, the exit code is 0, and the file asked for is read back as the report; if
it fails, the exit code is 1 and nothing is written. When the words set the global limit to 0 and
allow one machine at most, it makes no difference to what is printed and to the exit code whether
the words name `--single`; only the machine in the pool reports that its forks were refused. -/
theorem runIn_reports {words : List String} (parsed : Options.ofWords words = some options)
    (ready : Ready tree options source program input) (size : source.length < 2 ^ 64) :
    (∀ fuel outcome after, runIn fuel tree options = some (outcome, after) →
      ∃ execution, Session.execution fuel options source input = some execution ∧
        (∀ report, execution.answer = .ok report →
          (∀ path ∈ options.report, ∀ bytes, ∃ after, tree.write path bytes = .ok after) →
          Succeeds tree options.report report outcome after) ∧
        ∀ failure, execution.answer = .error failure → ∃ fault report,
          failure = .aborted fault report ∧ Fails tree report outcome after) ∧
    (Options.AllowOneMachine words → options.single = false →
      Options.ofWords ("--single" :: words) = some { options with single := true } ∧
      ((∃ fuel ending, runIn fuel tree options = some ending) ↔
        ∃ fuel ending, runIn fuel tree { options with single := true } = some ending) ∧
      ∀ fuel aloneFuel outcome alone after afterAlone,
        runIn fuel tree options = some (outcome, after) →
        runIn aloneFuel tree { options with single := true } = some (alone, afterAlone) →
        outcome.printed = alone.printed ∧ outcome.code = alone.code ∧
          ∃ pooled lone, Session.execution fuel options source input = some pooled ∧
            Session.execution aloneFuel { options with single := true } source input = some lone ∧
            pooled.DifferInRefusals options.settings.pool.maxLive
              (forkSites aloneFuel source input options.settings) lone) := by
  constructor
  · intro fuel outcome after returned
    rw [ready.runIn_eq] at returned
    obtain ⟨execution, answered, ending⟩ := Option.map_eq_some_iff.mp returned
    obtain ⟨rfl, rfl⟩ := Prod.mk.inj ending
    refine ⟨execution, answered, ?_⟩
    have concludes := ready.concludes size (Options.maxLive_lt parsed) answered
    generalize answer_eq : execution.answer = answer at concludes
    cases concludes with
    | finished fits =>
        refine ⟨?_, by simp⟩
        rintro report ⟨⟩ writable
        exact succeeds_settle answer_eq writable fits
    | aborted fault report =>
        refine ⟨by simp, ?_⟩
        rintro failure ⟨⟩
        exact ⟨fault, report, rfl, fails_settle answer_eq⟩
  · intro allowOne pooled
    obtain ⟨unlimited, small⟩ := Options.limits_of_allowOneMachine parsed allowOne
    refine ⟨Options.ofWords_single parsed pooled,
      ready.exists_runIn_iff pooled unlimited small, ?_⟩
    intro fuel aloneFuel outcome alone after afterAlone returned returnedAlone
    rw [ready.runIn_eq] at returned
    rw [ready.alone.runIn_eq] at returnedAlone
    obtain ⟨execution, answered, ending⟩ := Option.map_eq_some_iff.mp returned
    obtain ⟨lone, answeredAlone, endingAlone⟩ := Option.map_eq_some_iff.mp returnedAlone
    obtain ⟨rfl, rfl⟩ := Prod.mk.inj ending
    obtain ⟨rfl, rfl⟩ := Prod.mk.inj endingAlone
    have differ := ready.differInRefusals pooled unlimited small answered answeredAlone
    exact ⟨(settle_congr differ).1, (settle_congr differ).2, execution, lone, answered,
      answeredAlone, differ⟩

/-- Run the program in `p.b` with room for one machine and without a global limit, and write the
report to `r`. -/
def oneMachineWords : List String :=
  ["--report", "r", "--max-instances", "1", "--global-step-limit", "0", "p.b"]

/-- What these words say. -/
def oneMachineOptions : Options where
  file := "p.b"
  input := .nothing
  single := false
  tokens := false
  coloured := true
  listing := false
  report := some "r"
  settings := { pool := { maxLive := 1, maxGlobalSteps := none } }

/-- A tree that holds nothing but the program `p.b`. -/
def plusForkTree : FileTree where
  nodes := [(["p.b", "tmp"], .file (Text.Utf8.bytes "+FORK"))]
  workingDirectory := ["tmp"]
  shown := []

/-- What the session reports. -/
def plusForkReport : Report where
  results := [⟨0, none, [], [], 0, [1], 2, true⟩]
  refusals := [⟨0, 1, 1, 1⟩]
  totalSteps := 2

/-- The report of `+FORK` is written to `r` and read back. With `--single` the same is printed, and
the exit code is 0 as well. -/
theorem plusFork_runIn_reports : ∃ program outcome after alone afterAlone,
    Ready plusForkTree oneMachineOptions "+FORK" program ⟨[]⟩ ∧
      runIn 4 plusForkTree oneMachineOptions = some (outcome, after) ∧
      Succeeds plusForkTree (some "r") plusForkReport outcome after ∧
      (∃ bytes, after.read "r" = .ok bytes ∧ Report.ofBytes bytes = .ok plusForkReport) ∧
      runIn 4 plusForkTree { oneMachineOptions with single := true } = some (alone, afterAlone) ∧
      outcome.printed = alone.printed ∧ outcome.code = alone.code := by
  have parsed : Options.ofWords oneMachineWords = some oneMachineOptions := by decide +kernel
  have loads : (Program.load "+FORK" .keyword).isOk = true := by decide +kernel
  have steps : Path.steps "p.b" = ["p.b"] := by
    rw [Path.steps_eq]
    decide
  have reportSteps : Path.steps "r" = ["r"] := by
    rw [Path.steps_eq]
    decide
  have isProgram : Path.isProgram "p.b" = true := by
    rw [Path.isProgram, Path.extension?, Path.names, steps]
    decide +kernel
  have bytesRead : plusForkTree.read "p.b" = .ok (Text.Utf8.bytes "+FORK") := by
    rw [FileTree.read, steps]
    decide +kernel
  have sourceRead : readSource plusForkTree.read "p.b" = .ok "+FORK" := by
    rw [readSource, if_pos isProgram, bytesRead]
    decide +kernel
  have destination : plusForkTree.destination "r" = .ok ["r", "tmp"] := by
    rw [FileTree.destination, reportSteps]
    decide +kernel
  have free : plusForkTree.node? ["r", "tmp"] = none := by decide +kernel
  have answered : (execution 4 oneMachineOptions "+FORK" ⟨[]⟩).map Execution.answer =
      some (.ok plusForkReport) := by decide +kernel
  have answeredAlone : (execution 4 { oneMachineOptions with single := true } "+FORK"
      ⟨[]⟩).isSome = true := by decide +kernel
  have allowOne : Options.AllowOneMachine oneMachineWords := by
    refine ⟨[.setting .report "r", .setting .maxInstances "1", .setting .globalStepLimit "0",
      .file "p.b"], by decide +kernel, ⟨"0", by simp, by decide +kernel⟩,
      "1", 1, by simp, by decide +kernel, Nat.le_refl 1⟩
  have writable : ∀ path ∈ some "r", ∀ bytes, ∃ after,
      plusForkTree.write path bytes = .ok after := by
    rintro _ ⟨⟩ bytes
    refine ⟨plusForkTree.put ["r", "tmp"] bytes, ?_⟩
    simp only [FileTree.write, destination, free, bind, Except.bind]
  have file : plusForkTree.NamesFile "r" := by
    intro place device named
    rw [destination] at named
    cases named
    simp [free]
  cases loaded : Program.load "+FORK" .keyword with
  | error error => simp [loaded, Except.isOk, Except.toBool] at loads
  | ok program =>
      have ready : Ready plusForkTree oneMachineOptions "+FORK" program ⟨[]⟩ :=
        ⟨rfl, rfl, sourceRead, loaded, rfl⟩
      obtain ⟨reports, same⟩ := runIn_reports parsed ready (by decide +kernel)
      obtain ⟨_, _, agree⟩ := same allowOne rfl
      obtain ⟨execution, found, answer⟩ := Option.map_eq_some_iff.mp answered
      obtain ⟨lone, foundAlone⟩ := Option.isSome_iff_exists.mp answeredAlone
      have returned := ready.runIn_eq 4
      have returnedAlone := ready.alone.runIn_eq 4
      rw [found, Option.map_some] at returned
      rw [foundAlone, Option.map_some] at returnedAlone
      obtain ⟨other, otherFound, succeeds, _⟩ := reports 4 _ _ returned
      obtain rfl : execution = other := Option.some.inj (found.symm.trans otherFound)
      have succeeds := succeeds _ answer writable
      obtain ⟨bytes, _, _, readBack, decodes⟩ := succeeds.written "r" rfl
      obtain ⟨printed, code, _⟩ := agree 4 4 _ _ _ _ returned returnedAlone
      exact ⟨program, _, _, _, _, ready, returned, succeeds,
        ⟨bytes, (readBack file).1, decodes ⟨by decide, by decide⟩⟩, returnedAlone, printed, code⟩

end ForkTape.CommandLine.Session
