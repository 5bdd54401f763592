import ForkTape.CommandLine.Options
import Mathlib.Data.Option.Basic

/-!
# What the words of a command line come to

Nothing is said twice on a command line, so a setting has the value that any of its arguments gives
it (`Options.read_of_mem`), and a flag that is added says its own and changes nothing else
(`Options.ofWords_single`).
-/

namespace ForkTape.CommandLine

/-- A number that was read is below the bound of all numbers. -/
theorem readNumber_lt {text : String} {number : Nat} (spelled : readNumber text = some number) :
    number < numberBound := by
  simp only [readNumber, Option.ite_none_left_eq_some, Option.ite_none_right_eq_some,
    Option.some.injEq] at spelled
  obtain ⟨-, within, rfl⟩ := spelled
  exact within

namespace Options

variable {α : Type} {arguments : List Argument} {setting : Setting} {reader : String → Option α}
  {default : α}

/-! ## Settings -/

/-- What has a value, a reader of it or the default has given. -/
theorem read_cases {value : α} (given : read arguments setting reader default = some value) :
    value = default ∨ ∃ text, reader text = some value := by
  rw [read] at given
  split at given
  · rename_i text found
    exact .inr ⟨text, given⟩
  · exact .inl (Option.some.inj given).symm

/-- Of arguments that do not repeat a setting, one alone gives it a value. -/
theorem eq_of_setting_mem (nodup : (arguments.filterMap Argument.setting?).Nodup)
    {text other : String} (given : .setting setting text ∈ arguments)
    (otherGiven : .setting setting other ∈ arguments) : other = text := by
  induction arguments with
  | nil => contradiction
  | cons argument arguments ih =>
      have rest : (arguments.filterMap Argument.setting?).Nodup := by
        cases found : argument.setting? <;> simp_all
      have absent {value : String} (first : argument = .setting setting value) {again : String} :
          .setting setting again ∉ arguments := by
        intro later
        have named : argument.setting? = some setting := by rw [first, Argument.setting?]
        rw [List.filterMap_cons_some named, List.nodup_cons] at nodup
        exact nodup.1 (List.mem_filterMap.mpr ⟨_, later, rfl⟩)
      rcases List.mem_cons.mp given with first | given <;>
        rcases List.mem_cons.mp otherGiven with otherFirst | otherGiven
      · rw [← first] at otherFirst
        cases otherFirst
        rfl
      · exact absurd otherGiven (absent first.symm)
      · exact absurd given (absent otherFirst.symm)
      · exact ih rest given otherGiven

/-- A setting has the value that its argument gives it. -/
theorem read_of_mem (nodup : (arguments.filterMap Argument.setting?).Nodup) {text : String}
    (given : .setting setting text ∈ arguments) :
    read arguments setting reader default = reader text := by
  rw [read]
  split
  · rename_i other found
    obtain ⟨argument, argumentMem, isValue⟩ := List.exists_of_findSome?_eq_some found
    obtain rfl : argument = .setting setting other := by
      cases argument with
      | setting named value =>
          rw [Argument.value?] at isValue
          split at isValue
          · rename_i same
            cases isValue
            rw [same]
          · contradiction
      | _ => contradiction
    rw [eq_of_setting_mem nodup given argumentMem]
  · rename_i missing
    have unread := List.findSome?_eq_none_iff.mp missing _ given
    simp [Argument.value?] at unread

/-! ## Flags -/

/-- A flag that has not been named can be. -/
theorem unrepeated_flag {flag : Flag} (absent : flag ∉ arguments.filterMap Argument.flag?) :
    unrepeated (.flag flag :: arguments) = unrepeated arguments := by
  have settings : (Argument.flag flag :: arguments).filterMap Argument.setting? =
      arguments.filterMap Argument.setting? := rfl
  rw [unrepeated, unrepeated, settings]
  simp [Argument.flag?, absent]

variable {options : Options}

/-- What arguments must be like to give options, and where the options that depend on limits come
from. -/
theorem ofArguments_cases (parsed : ofArguments arguments = some options) :
    unrepeated arguments = true ∧
      options.single = (arguments.filterMap Argument.flag?).contains .single ∧
      readPool arguments = some options.settings.pool := by
  simp only [ofArguments, Option.bind_eq_bind, Option.bind_eq_some_iff] at parsed
  obtain ⟨_, unrepeated, file, _, input, _, report, _, spelling, _, pool, poolRead, made⟩ := parsed
  cases made
  exact ⟨(Option.guard_eq_some' _).mp unrepeated, rfl, poolRead⟩

/-- To name a flag that is not named yet is to set it. -/
theorem ofArguments_single (parsed : ofArguments arguments = some options)
    (pooled : options.single = false) :
    ofArguments (.flag .single :: arguments) = some { options with single := true } := by
  have absent : .single ∉ arguments.filterMap Argument.flag? := by
    have named := (ofArguments_cases parsed).2.1
    rw [pooled] at named
    simpa using named.symm
  have flags : (Argument.flag .single :: arguments).filterMap Argument.flag? =
      .single :: arguments.filterMap Argument.flag? := rfl
  simp only [ofArguments, Option.bind_eq_bind, Option.bind_eq_some_iff] at parsed ⊢
  obtain ⟨_, unrepeated, file, fileRead, input, inputRead, report, reportRead, spelling,
    spellingRead, pool, poolRead, made⟩ := parsed
  cases made
  refine ⟨_, unrepeated_flag absent ▸ unrepeated, file, fileRead, input, inputRead, report,
    reportRead, spelling, spellingRead, pool, poolRead, ?_⟩
  rw [flags]
  rfl

/-- The flag can be the first word. -/
theorem ofWords_single {words : List String} (parsed : ofWords words = some options)
    (pooled : options.single = false) :
    ofWords ("--single" :: words) = some { options with single := true } := by
  simp only [ofWords, Option.bind_eq_bind, Option.bind_eq_some_iff] at parsed ⊢
  obtain ⟨arguments, read, made⟩ := parsed
  have named : Word.ofString "--single" = .named "single" none := by decide +kernel
  refine ⟨.flag .single :: arguments, ?_, ofArguments_single made pooled⟩
  simp [Argument.ofWords, named, Flag.ofName?, read]

/-! ## Limits -/

variable {pool : Pool.Config} {words : List String} {text : String}

theorem readPool_cases (given : readPool arguments = some pool) :
    read arguments .maxInstances readNumber 8 = some pool.maxLive ∧
      read arguments .globalStepLimit (Option.map limitOfNumber ∘ readNumber) (some 10000000) =
        some pool.maxGlobalSteps := by
  simp only [readPool, Option.bind_eq_bind, Option.bind_eq_some_iff] at given
  obtain ⟨_, machines, _, limit, _, _, _, _, made⟩ := given
  cases made
  exact ⟨machines, limit⟩

/-- The number of machines that may run is in range. -/
theorem maxLive_lt (parsed : ofWords words = some options) :
    options.settings.pool.maxLive < numberBound := by
  simp only [ofWords, Option.bind_eq_bind, Option.bind_eq_some_iff] at parsed
  obtain ⟨arguments, _, made⟩ := parsed
  obtain ⟨_, _, pool⟩ := ofArguments_cases made
  rcases read_cases (readPool_cases pool).1 with isDefault | ⟨text, spelled⟩
  · rw [isDefault]
    decide
  · exact readNumber_lt spelled

theorem nodup_settings (parsed : ofArguments arguments = some options) :
    (arguments.filterMap Argument.setting?).Nodup := by
  have unrepeated := (ofArguments_cases parsed).1
  rw [Options.unrepeated, Bool.and_eq_true, decide_eq_true_eq, decide_eq_true_eq] at unrepeated
  exact unrepeated.2

/-- With the global limit set to 0 there is none. -/
theorem maxGlobalSteps_eq_none (parsed : ofArguments arguments = some options)
    (given : .setting .globalStepLimit text ∈ arguments) (zero : readNumber text = some 0) :
    options.settings.pool.maxGlobalSteps = none := by
  have limit := (readPool_cases (ofArguments_cases parsed).2.2).2
  rw [read_of_mem (nodup_settings parsed) given] at limit
  simpa [zero, limitOfNumber] using limit.symm

/-- As many machines may run as their setting says. -/
theorem maxLive_eq {count : Nat} (parsed : ofArguments arguments = some options)
    (given : .setting .maxInstances text ∈ arguments) (spelled : readNumber text = some count) :
    options.settings.pool.maxLive = count := by
  have machines := (readPool_cases (ofArguments_cases parsed).2.2).1
  rw [read_of_mem (nodup_settings parsed) given, spelled] at machines
  exact (Option.some.inj machines).symm

/-- The words set the global limit to 0, and the number of machines that may run to 0 or 1. -/
def AllowOneMachine (words : List String) : Prop :=
  ∃ arguments, Argument.ofWords words = some arguments ∧
    (∃ text, .setting .globalStepLimit text ∈ arguments ∧ readNumber text = some 0) ∧
    ∃ text count, .setting .maxInstances text ∈ arguments ∧ readNumber text = some count ∧ count ≤ 1

theorem limits_of_allowOneMachine (parsed : ofWords words = some options)
    (allowOne : AllowOneMachine words) :
    options.settings.pool.maxGlobalSteps = none ∧ options.settings.pool.maxLive ≤ 1 := by
  obtain ⟨arguments, read, ⟨zero, zeroGiven, isZero⟩, few, count, fewGiven, isFew, small⟩ :=
    allowOne
  simp only [ofWords, read, Option.bind_eq_bind, Option.bind_some] at parsed
  exact ⟨maxGlobalSteps_eq_none parsed zeroGiven isZero, maxLive_eq parsed fewGiven isFew ▸ small⟩

end Options

end ForkTape.CommandLine
