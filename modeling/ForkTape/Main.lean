import ForkTape.CommandLine.Session

/-!
# The command line program

Reads the files that a session asks for, lets it run, and prints and writes what it comes to.
-/

namespace ForkTape.CommandLine

/-- More turns than any run takes. -/
def ampleFuel : Nat := Nat.pow 2 62

/-- The reason that a system's error number stands for. -/
def FileError.ofNumber (number : UInt32) (details : String) : FileError :=
  match number with
  | 2 => .notFound
  | 20 => .notADirectory
  | 21 => .isADirectory
  | 28 => .noSpace
  | 36 => .nameTooLong
  | _ => .other s!"{details} (os error {number})"

/-- The reason why the system refused a file. -/
def FileError.ofSystem : IO.Error → FileError
  | .noFileOrDirectory _ number details => .ofNumber number details
  | .inappropriateType _ number details => .ofNumber number details
  | .invalidArgument _ number details => .ofNumber number details
  | .permissionDenied _ number details => .ofNumber number details
  | .resourceExhausted _ number details => .ofNumber number details
  | error => .other (toString error)

/-- The content of a file. -/
def fetch (path : String) : IO (Except FileError (List UInt8)) := do
  try
    let handle ← IO.FS.Handle.mk path .read
    return .ok (← handle.readBinToEnd).data.toList
  catch error =>
    return .error (.ofSystem error)

/-- Write a file. -/
def store (path : String) (bytes : List UInt8) : IO (Except FileError Unit) := do
  try
    let handle ← IO.FS.Handle.mk path .write
    handle.write (ByteArray.mk bytes.toArray)
    handle.flush
    return .ok ()
  catch error =>
    return .error (.ofSystem error)

/-- A logged event as a line. -/
def eventLine (event : Event) : String :=
  let fields := event.fields.map fun (name, value) => " " ++ name ++ "=" ++ toString value
  " WARN " ++ event.message ++ String.join fields

/-- Carry out a session in the file system. -/
def perform (options : Options) : IO UInt32 := do
  let mut contents : List (String × Except FileError (List UInt8)) := []
  for path in options.filesRead do
    contents := (path, ← fetch path) :: contents
  let read : Session.Reader := fun path => (contents.lookup path).getD (.error .notFound)
  let some outcome := Session.outcome ampleFuel read options
    | IO.eprintln "error: out of fuel"
      return 1
  for event in outcome.log do
    if event.level = .warn then
      IO.eprintln (eventLine event)
  let output ← IO.getStdout
  output.write (ByteArray.mk outcome.printed.toArray)
  output.flush
  let outcome ←
    match outcome.report? with
    | none => pure outcome
    | some (path, bytes) => pure (outcome.afterWriting (← store path bytes))
  IO.eprint outcome.errorText
  return UInt32.ofNat outcome.code

/-- How the program is called. -/
def usage : String :=
  "usage: forktape [--input TEXT | --input-file PATH] [--single] [--max-instances N]\n"
    ++ "  [--step-limit N] [--global-step-limit N] [--tape-size N]\n"
    ++ "  [--overflow reject|clamp|grow] [--split halve|parent-keeps|child-takes]\n"
    ++ "  [--fork-syntax keyword|letter|both] [--tokens] [--no-color] [--disasm]\n"
    ++ "  [--report PATH] FILE"

end ForkTape.CommandLine

open ForkTape.CommandLine in
def main (words : List String) : IO UInt32 := do
  match Options.ofWords words with
  | some options => perform options
  | none =>
      IO.eprintln usage
      return UInt32.ofNat badArgumentsCode
