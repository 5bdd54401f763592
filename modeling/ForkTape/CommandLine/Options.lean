import ForkTape.CommandLine.Argument
import ForkTape.Execution

/-!
# Options

The options of a session are what its arguments say, with a default for what they do not. There
is exactly one program file, and nothing is said twice: neither a flag nor a setting is
repeated, and the input is given as text or as a file but not both.
-/

namespace ForkTape.CommandLine

/-- Where the program's input comes from. -/
inductive InputChoice
  | nothing
  | text (text : String)
  | file (path : String)
  deriving DecidableEq, Repr, Inhabited

/-- The options of a session. -/
structure Options where
  file : String
  input : InputChoice
  single : Bool
  tokens : Bool
  coloured : Bool
  listing : Bool
  report : Option String
  settings : Settings
  deriving DecidableEq, Repr, Inhabited

namespace Argument

/-- The path of a program file. -/
def path? : Argument → Option String
  | file path => some path
  | _ => none

/-- The flag that is set. -/
def flag? : Argument → Option Flag
  | flag named => some named
  | _ => none

/-- The setting that is given a value. -/
def setting? : Argument → Option Setting
  | setting named _ => some named
  | _ => none

/-- The value given to one setting. -/
def value? (wanted : Setting) : Argument → Option String
  | setting named value => if named = wanted then some value else none
  | _ => none

end Argument

/-- The bound that numbers on the command line stay below. -/
def numberBound : Nat := Nat.pow 2 64

/-- The number that a text spells: decimal digits, at most one plus sign in front of them. -/
def readNumber (text : String) : Option Nat :=
  let digits :=
    match text.toList with
    | '+' :: digits => digits
    | digits => digits
  if digits.isEmpty || !digits.all Char.isDigit then none
  else
    let number := Nat.ofDigitChars 10 digits 0
    if number < numberBound then some number else none

/-- The overflow policy that a text names. -/
def readOverflow : String → Option Tape.Overflow
  | "reject" => some .reject
  | "clamp" => some .clamp
  | "grow" => some .grow
  | _ => none

/-- The way to split input that a text names. -/
def readSplit : String → Option Input.Split
  | "halve" => some .halve
  | "parent-keeps" => some .parentKeeps
  | "child-takes" => some .childTakes
  | _ => none

/-- The spelling of forks that a text names. -/
def readSpelling : String → Option ForkSpelling
  | "keyword" => some .keyword
  | "letter" => some .letter
  | "both" => some .both
  | _ => none

/-- A path is any text but the empty one. -/
def readPath (text : String) : Option String :=
  if text.isEmpty then none else some text

/-- A limit of 0 is no limit. -/
def limitOfNumber (number : Nat) : Limit :=
  if number = 0 then none else some number

namespace Options

/-- What one setting says: its default where it is not given, and `none` where it is given a
value that cannot be read. -/
def read (arguments : List Argument) (setting : Setting) (reader : String → Option α)
    (default : α) : Option α :=
  match arguments.findSome? (Argument.value? setting) with
  | some value => reader value
  | none => some default

/-- The only program file. -/
def readFile (arguments : List Argument) : Option String :=
  match arguments.filterMap Argument.path? with
  | [path] => readPath path
  | _ => none

/-- The input, which has one source at most. -/
def readInput (arguments : List Argument) : Option InputChoice := do
  let text ← read arguments .input (some ∘ some) none
  let file ← read arguments .inputFile (fun value => (readPath value).map some) none
  match text, file with
  | some _, some _ => none
  | some text, none => some (.text text)
  | none, some path => some (.file path)
  | none, none => some .nothing

/-- How a machine is run. -/
def readMachine (arguments : List Argument) : Option Machine.Config := do
  let default : Machine.Config := {}
  return {
    tapeCapacity := ← read arguments .tapeSize readNumber default.tapeCapacity
    maxSteps := ← read arguments .stepLimit (Option.map limitOfNumber ∘ readNumber)
      default.maxSteps
    overflow := ← read arguments .overflow readOverflow default.overflow }

/-- How a pool is run. -/
def readPool (arguments : List Argument) : Option Pool.Config := do
  let default : Pool.Config := {}
  return {
    maxLive := ← read arguments .maxInstances readNumber default.maxLive
    maxGlobalSteps := ← read arguments .globalStepLimit
      (Option.map limitOfNumber ∘ readNumber) default.maxGlobalSteps
    inputSplit := ← read arguments .split readSplit default.inputSplit
    machine := ← readMachine arguments }

/-- Whether no flag and no setting is repeated. -/
def unrepeated (arguments : List Argument) : Bool :=
  decide (arguments.filterMap Argument.flag?).Nodup
    && decide (arguments.filterMap Argument.setting?).Nodup

/-- The options that arguments give; `none` if the arguments are wrong. -/
def ofArguments (arguments : List Argument) : Option Options := do
  let flags := arguments.filterMap Argument.flag?
  guard (unrepeated arguments)
  return {
    file := ← readFile arguments
    input := ← readInput arguments
    single := flags.contains .single
    tokens := flags.contains .tokens
    coloured := !flags.contains .noColour
    listing := flags.contains .listing
    report := ← read arguments .report (fun value => (readPath value).map some) none
    settings := {
      spelling := ← read arguments .forkSyntax readSpelling .keyword
      pool := ← readPool arguments } }

/-- The options that the words of a command line give; `none` if the words are wrong. -/
def ofWords (words : List String) : Option Options := do
  ofArguments (← Argument.ofWords words)

/-- The files that a session with these options reads. -/
def filesRead (options : Options) : List String :=
  match options.input with
  | .file path => [options.file, path]
  | _ => [options.file]

end Options

end ForkTape.CommandLine
