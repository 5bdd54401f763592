/-!
# Arguments of the command line

The words of a command line are a program file, flags, and settings with a value. A setting and
its value are one word joined by `=` or two words. The word `--` ends the flags and settings:
every word after it is a file.

Every flag and every setting is named in full. A word that begins with `-` and names none is
refused; only `-` alone is a file or a value like any other word.
-/

namespace ForkTape.CommandLine

/-- What is switched on by being named. -/
inductive Flag
  /-- Run one machine alone. -/
  | single
  /-- Show the instructions of the source text only. -/
  | tokens
  /-- Show them without colours. -/
  | noColour
  /-- Show the program listing only. -/
  | listing
  deriving DecidableEq, Repr

/-- What is given a value. -/
inductive Setting
  /-- The program's input. -/
  | input
  /-- The file that holds the program's input. -/
  | inputFile
  /-- How many machines may run at once. -/
  | maxInstances
  /-- How many instructions one machine may execute; 0 is no limit. -/
  | stepLimit
  /-- How many instructions all machines together may execute; 0 is no limit. -/
  | globalStepLimit
  /-- The number of cells of a tape. -/
  | tapeSize
  /-- What a move past the last cell does. -/
  | overflow
  /-- How input is shared at a fork. -/
  | split
  /-- How a fork is spelled. -/
  | forkSyntax
  /-- The file that the report is written to. -/
  | report
  deriving DecidableEq, Repr

/-- The flag with the given name. -/
def Flag.ofName? : String → Option Flag
  | "single" => some single
  | "tokens" => some tokens
  | "no-color" => some noColour
  | "disasm" => some listing
  | _ => none

/-- The setting with the given name. -/
def Setting.ofName? : String → Option Setting
  | "input" => some input
  | "input-file" => some inputFile
  | "max-instances" => some maxInstances
  | "step-limit" => some stepLimit
  | "global-step-limit" => some globalStepLimit
  | "tape-size" => some tapeSize
  | "overflow" => some overflow
  | "split" => some split
  | "fork-syntax" => some forkSyntax
  | "report" => some report
  | _ => none

/-- One argument. -/
inductive Argument
  | file (path : String)
  | flag (flag : Flag)
  | setting (setting : Setting) (value : String)
  deriving DecidableEq, Repr

/-- A word taken apart as far as it shows by itself what it is. -/
inductive Word
  /-- The end of flags and settings. -/
  | stop
  /-- A name, and the value joined to it. -/
  | named (name : String) (value? : Option String)
  /-- A word that can be a file or a value. -/
  | plain (text : String)
  /-- Anything else. -/
  | unknown
  deriving DecidableEq, Repr

/-- A name is told from the value joined to it by the first `=`. -/
def Word.ofName (chars : List Char) : Word :=
  let (name, rest) := chars.span (· != '=')
  match rest with
  | [] => .named (String.ofList name) none
  | _ :: value => .named (String.ofList name) (some (String.ofList value))

/-- What a word shows by itself. -/
def Word.ofString (text : String) : Word :=
  match text.toList with
  | ['-', '-'] => .stop
  | '-' :: '-' :: name => Word.ofName name
  | '-' :: _ :: _ => .unknown
  | _ => .plain text

/-- The arguments that a row of words gives; `none` if a word is refused, a value is missing, or a
flag is given one. -/
def Argument.ofWords : List String → Option (List Argument)
  | [] => some []
  | word :: rest =>
      match Word.ofString word with
      | .stop => some (rest.map .file)
      | .plain text => (ofWords rest).map (.file text :: ·)
      | .unknown => none
      | .named name value? =>
          match Flag.ofName? name, Setting.ofName? name, value? with
          | some named, _, none => (ofWords rest).map (.flag named :: ·)
          | none, some named, some value => (ofWords rest).map (.setting named value :: ·)
          | none, some named, none =>
              match rest with
              | value :: rest =>
                  match Word.ofString value with
                  | .plain value => (ofWords rest).map (.setting named value :: ·)
                  | _ => none
              | [] => none
          | _, _, _ => none

end ForkTape.CommandLine
