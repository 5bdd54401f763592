import ForkTape.CommandLine.FileTree
import ForkTape.CommandLine.Options
import ForkTape.Listing
import ForkTape.Report.Binary
import ForkTape.Report.Text

/-!
# Sessions

A session carries out one command line. It shows the instructions of a source text, or its
program listing, or runs it and prints the report. All it learns about files comes from a
function that reads them; all it has to say is in its outcome. So a session is the same in a
`FileTree` and in a file system.
-/

namespace ForkTape.CommandLine

/-- Why a session fails. -/
inductive Error
  | file (error : FileError)
  | failure (failure : Failure)
  deriving DecidableEq, Repr

/-- The text of the error. -/
def Error.message : Error → String
  | file error => "i/o error: " ++ error.message
  | failure cause => cause.message

/-- What a session comes to. -/
structure Outcome where
  printed : List UInt8
  error? : Option Error
  /-- The file that remains to be written, if all goes well. -/
  report? : Option (String × List UInt8)
  log : Array Event

namespace Outcome

/-- A session that prints text and succeeds. -/
def ofLines (lines : List String) : Outcome :=
  ⟨Text.Utf8.bytes (Text.ofLines lines), none, none, #[]⟩

/-- A session that fails before it prints anything. -/
def ofError (error : Error) : Outcome :=
  ⟨[], some error, none, #[]⟩

/-- A session that has run a program. A report is printed even of a run that a fault ended, but
only that of a successful run is written to a file. -/
def ofExecution (path? : Option String) (execution : Execution Report) : Outcome :=
  match execution.answer with
  | .ok report =>
      ⟨report.printed, none, path?.map fun path => (path, report.toBytes), execution.log⟩
  | .error failure =>
      let printed :=
        match failure.report? with
        | some report => report.printed
        | none => []
      ⟨printed, some (.failure failure), none, execution.log⟩

/-- The outcome once the report has been written or could not be. -/
def afterWriting (outcome : Outcome) (written : Except FileError Unit) : Outcome :=
  match written with
  | .ok () => outcome
  | .error error => { outcome with error? := some (.file error) }

/-- The exit code. -/
def code (outcome : Outcome) : Nat :=
  if outcome.error?.isSome then 1 else 0

/-- How a line begins that tells of an error. -/
def errorMark : String := "error: "

/-- The text that tells of the error. It is a line, but a path in it may have line feeds. -/
def errorText (outcome : Outcome) : String :=
  match outcome.error? with
  | none => ""
  | some error => errorMark ++ error.message ++ "\n"

/-- The lines that tell of an error, or look as if they did. -/
def errorLines (outcome : Outcome) : List String :=
  (Text.lines outcome.errorText).filter fun line => line.startsWith errorMark

end Outcome

/-- The exit code of a command line that is wrong. -/
def badArgumentsCode : Nat := 2

namespace Session

/-- A way to read files. -/
abbrev Reader := String → Except FileError (List UInt8)

/-- The text of a program file. -/
def readSource (read : Reader) (path : String) : Except FileError String :=
  if Path.isProgram path then
    match read path with
    | .error error => .error error
    | .ok bytes =>
        match Text.Utf8.strict? bytes with
        | some source => .ok source
        | none => .error .notText
  else .error (.wrongExtension path)

/-- The input of the program. -/
def readInput (read : Reader) : InputChoice → Except FileError Input
  | .nothing => .ok ⟨[]⟩
  | .text text => .ok ⟨Text.Utf8.bytes text⟩
  | .file path =>
      match read path with
      | .ok bytes => .ok ⟨bytes⟩
      | .error error => .error error

/-- Run a source text as the options say. -/
def execution (fuel : Nat) (options : Options) (source : String) (input : Input) :
    Option (Execution Report) :=
  if options.single then
    (executeAlone fuel source input options.settings).map fun alone =>
      ⟨alone.answer.map Execution.soloReport, alone.log⟩
  else execute fuel source input options.settings

/-- What a session with the given options comes to, up to writing its report. -/
def outcome (fuel : Nat) (read : Reader) (options : Options) : Option Outcome :=
  match readSource read options.file with
  | .error error => some (.ofError (.file error))
  | .ok source =>
      if options.tokens then
        let found := Source.instructions options.settings.spelling source
        some (.ofLines (Source.tokenListing found options.coloured))
      else if options.listing then
        match Program.load source options.settings.spelling with
        | .ok program => some (.ofLines program.printedListing)
        | .error error => some (.ofError (.failure (.malformed error)))
      else
        match readInput read options.input with
        | .error error => some (.ofError (.file error))
        | .ok input => (execution fuel options source input).map (.ofExecution options.report)

/-- A session in a file tree: its outcome, and the tree after it. -/
def runIn (fuel : Nat) (tree : FileTree) (options : Options) : Option (Outcome × FileTree) :=
  (outcome fuel tree.read options).map fun outcome =>
    match outcome.report? with
    | none => (outcome, tree)
    | some (path, bytes) =>
        match tree.write path bytes with
        | .ok tree => (outcome.afterWriting (.ok ()), tree)
        | .error error => (outcome.afterWriting (.error error), tree)

end Session

end ForkTape.CommandLine
