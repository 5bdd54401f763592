import ForkTape.Report
import ForkTape.Text.Quoted
import ForkTape.Text.Utf8

/-!
# Reports as text

A machine that stayed alone is reported by its bare output. Any other report is listed: a line
for every machine with its output in quotes, a line for every refused fork, and a line with the
number of instructions executed.

A text of lines has a line feed after each line. Read back, a carriage return directly before a
line feed belongs to the end of the line, and what follows the last line feed is a line only if
it is not empty.
-/

namespace ForkTape

/-! ## Lines -/

namespace Text

/-- The text of a list of lines, each ended by a line feed. -/
def ofLines (lines : List String) : String :=
  String.join (lines.map fun line => line ++ "\n")

/-- The characters of a line, latest first, without the carriage return that ends it. -/
def withoutReturn : List Char → List Char
  | '\r' :: line => line
  | line => line

/-- The lines of a text, of which the first has begun with the characters of `line`, latest
first. -/
def linesFrom (line : List Char) : List Char → List (List Char)
  | [] => if line.isEmpty then [] else [line.reverse]
  | '\n' :: rest => (withoutReturn line).reverse :: linesFrom [] rest
  | char :: rest => linesFrom (char :: line) rest

/-- The lines of a text. -/
def lines (text : String) : List String :=
  (linesFrom [] text.toList).map String.ofList

end Text

/-! ## Reports -/

namespace Machine.Result

/-- The output as text, with a replacement character for every ill-formed part. -/
def outputText (result : Machine.Result) : String := Text.Utf8.lossy result.output

/-- The line of a machine in a listed report. -/
def line (result : Machine.Result) : String :=
  let parent :=
    match result.parent with
    | some parent => "T" ++ toString parent
    | none => "-"
  let state := if result.halted then "halted" else "running"
  s!"T{result.id} (parent {parent}, {state}, ptr {result.dataPointer}, "
    ++ s!"{result.steps} steps): " ++ Text.quoted result.outputText

end Machine.Result

/-- The line of a refused fork in a listed report. -/
def Refusal.line (refusal : Refusal) : String :=
  s!"fork refused: T{refusal.machine} at instruction {refusal.instructionPointer} "
    ++ s!"({refusal.live} live, budget {refusal.budget})"

namespace Report

/-- The output of the only machine of a report that shows no fork. -/
def soleOutput? (report : Report) : Option (List UInt8) :=
  match report.results with
  | [only] => if only.parent.isNone && only.children.isEmpty then some only.output else none
  | _ => none

/-- The lines of a listed report. -/
def lines (report : Report) : List String :=
  report.results.map Machine.Result.line ++ report.refusals.map Refusal.line
    ++ [s!"{report.totalSteps} steps"]

/-- What is printed for a report. -/
def printed (report : Report) : List UInt8 :=
  match report.soleOutput? with
  | some output => output
  | none => Text.Utf8.bytes (Text.ofLines report.lines)

end Report

end ForkTape
