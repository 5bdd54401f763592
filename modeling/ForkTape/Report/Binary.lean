import ForkTape.Binary.Format
import ForkTape.Report

/-!
# Binary form of reports

Reports and their parts are written field by field. Ids are numbers of 32 bits, all other
numbers, lengths included, have 64.
-/

namespace ForkTape

namespace Binary.Format

/-- The format of ids and of places among alternatives. -/
def word : Format Nat := Varint.format 32

/-- The format of counts, positions and lengths. -/
def long : Format Nat := Varint.format 64

/-- The format of lists. -/
def list (format : Format α) : Format (List α) := listOf long format

end Binary.Format

open Binary (Format)

/-- An instruction is written as its place among the nine. -/
def Instruction.format : Format Instruction :=
  .choice .word [right, left, inc, dec, output, input, loopOpen, loopClose, fork]

/-- A way to split input is written as its place among the three. -/
def Input.Split.format : Format Input.Split :=
  .choice .word [halve, parentKeeps, childTakes]

/-- An overflow policy is written as its place among the three. -/
def Tape.Overflow.format : Format Tape.Overflow :=
  .choice .word [reject, clamp, grow]

/-- The binary form of a result. -/
def Machine.Result.format : Format Machine.Result :=
  (Format.word.pair <| Format.word.option.pair <| Format.word.list.pair <|
    Format.byte.list.pair <| Format.long.pair <| Format.byte.list.pair <|
    Format.long.pair Format.bool).map
    (fun (id, parent, children, output, dataPointer, tape, steps, halted) =>
      ⟨id, parent, children, output, dataPointer, tape, steps, halted⟩)
    (fun ⟨id, parent, children, output, dataPointer, tape, steps, halted⟩ =>
      (id, parent, children, output, dataPointer, tape, steps, halted))

/-- The binary form of a snapshot. -/
def Machine.Snapshot.format : Format Machine.Snapshot :=
  (Format.word.pair <| Format.word.option.pair <| Format.word.list.pair <|
    Format.long.pair <| Format.long.pair <| Instruction.format.option.pair Format.bool).map
    (fun (id, parent, children, dataPointer, instructionPointer, current, halted) =>
      ⟨id, parent, children, dataPointer, instructionPointer, current, halted⟩)
    (fun ⟨id, parent, children, dataPointer, instructionPointer, current, halted⟩ =>
      (id, parent, children, dataPointer, instructionPointer, current, halted))

/-- The binary form of a refusal. -/
def Refusal.format : Format Refusal :=
  (Format.word.pair <| Format.long.pair <| Format.long.pair Format.long).map
    (fun (machine, instructionPointer, live, budget) =>
      ⟨machine, instructionPointer, live, budget⟩)
    (fun ⟨machine, instructionPointer, live, budget⟩ =>
      (machine, instructionPointer, live, budget))

namespace Report

/-- The binary form of a report. -/
def format : Format Report :=
  (Machine.Result.format.list.pair <| Refusal.format.list.pair Format.long).map
    (fun (results, refusals, totalSteps) => ⟨results, refusals, totalSteps⟩)
    (fun ⟨results, refusals, totalSteps⟩ => (results, refusals, totalSteps))

/-- The bytes of a report. -/
def toBytes (report : Report) : List UInt8 := format.encode report

/-- The report at the front of a row of bytes; what follows it is ignored. -/
def ofBytes (bytes : List UInt8) : Except Binary.Error Report :=
  match format.decode bytes with
  | .ok (report, _) => .ok report
  | .error error => .error error

/-- The text of a failure to write or read a report. -/
def encodingMessage (error : Binary.Error) : String :=
  "report encoding failed: " ++ error.message

end Report

end ForkTape
