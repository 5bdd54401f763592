import ForkTape.Program

/-!
# Listings

The instructions of a program can be listed in two ways: as they are found in a source text, one
after the other (`Source.tokenListing`), or as the loaded program, indented by its loops
(`Program.listing`). Columns are brought to a least width. A text that is already as wide is left
as it is, so padding never cuts anything off.
-/

namespace ForkTape

/-! ## Padding -/

namespace Text

/-- `text` with as many copies of `filler` in front as bring it to `width` characters. -/
def padStart (width : Nat) (filler : Char) (text : String) : String :=
  String.ofList (text.toList.leftpad width filler)

/-- `text` followed by as many blanks as bring it to `width` characters. -/
def padEnd (width : Nat) (text : String) : String :=
  String.ofList (text.toList.rightpad width ' ')

/-- A number in decimal with leading zeros, at least `width` digits long. -/
def zeroPadded (width number : Nat) : String :=
  padStart width '0' (toString number)

end Text

/-!
## Token listings

A token listing has one line for each instruction of a source text: its index, its offset, the
group it belongs to and its symbol. On a terminal the group and the symbol are shown in the
colour of the group.
-/

/-- Instructions are listed in five groups, named for what they work on. -/
inductive Instruction.Group
  | move
  | arith
  | io
  | loop
  | fork
  deriving DecidableEq, Repr

namespace Instruction

/-- The group of an instruction. -/
def group : Instruction → Group
  | right | left => .move
  | inc | dec => .arith
  | output | input => .io
  | loopOpen | loopClose => .loop
  | fork => .fork

namespace Group

/-- The name of a group in listings. -/
def title : Group → String
  | move => "MOVE"
  | arith => "ARITH"
  | io => "IO"
  | loop => "LOOP"
  | fork => "FORK"

/-- The terminal code that selects the colour of a group: cyan, magenta, green or yellow. -/
def colour : Group → String
  | move => "\x1b[36m"
  | arith => "\x1b[35m"
  | io => "\x1b[32m"
  | loop | fork => "\x1b[33m"

/-- The terminal code that ends any colour. -/
def colourEnd : String := "\x1b[0m"

end Group

end Instruction

namespace Located

/-- The line of a token listing for the instruction at `index`. -/
def listingLine (located : Located) (index : Nat) (coloured : Bool) : String :=
  let group := located.instruction.group
  let place := "[" ++ Text.zeroPadded 4 index ++ " @" ++ Text.zeroPadded 5 located.offset ++ "] "
  let token := Text.padEnd 6 group.title ++ " " ++ located.instruction.symbol
  if coloured then place ++ group.colour ++ token ++ Instruction.Group.colourEnd
  else place ++ token

end Located

namespace Source

/-- The lines of the token listing of a sequence of located instructions. -/
def tokenListing (found : Array Located) (coloured : Bool) : List String :=
  found.toList.mapIdx fun index located => located.listingLine index coloured

end Source

/-!
## Program listings

A listing has one line for each instruction, indented by the number of loops around it: the
index, a mark at the head of a loop, the symbol, the partner of a bracket and the source
offset where it is known. A separator stands before each head of a loop.
-/

namespace Program

/-- The blank margin of a line inside `depth` loops. -/
def margin (depth : Nat) : String :=
  String.ofList (List.replicate (2 * depth) ' ')

/-- The separator before the head of a loop. -/
def separator (depth : Nat) : String :=
  margin depth ++ "      ┌──────────────────────────────────"

/-- The line of one instruction. -/
def listingLine (program : Program) (depth index : Nat) (instruction : Instruction) : String :=
  let mark := if instruction = .loopOpen then "► " else "  "
  let partner :=
    match program.partner? index with
    | some partner => " -> " ++ Text.zeroPadded 4 partner
    | none => ""
  let offset :=
    match program.offset? index with
    | some offset => "  ; @" ++ toString offset
    | none => ""
  margin depth ++ Text.zeroPadded 4 index ++ " " ++ mark
    ++ Text.padEnd 4 instruction.symbol ++ partner ++ offset

/-- Append to `lines` the listing of the instructions from `index` on, the first of which
follows on an instruction inside `depth` loops. -/
def listFrom (program : Program) (lines : Array String) (depth index : Nat) :
    List Instruction → Array String
  | [] => lines
  | .loopOpen :: rest =>
      let lines := lines.push (separator depth)
      let lines := lines.push (program.listingLine depth index .loopOpen)
      listFrom program lines (depth + 1) (index + 1) rest
  | .loopClose :: rest =>
      let lines := lines.push (program.listingLine (depth - 1) index .loopClose)
      listFrom program lines (depth - 1) (index + 1) rest
  | instruction :: rest =>
      let lines := lines.push (program.listingLine depth index instruction)
      listFrom program lines depth (index + 1) rest

/-- The lines of a program's listing. -/
def listing (program : Program) : List String :=
  (listFrom program #[] 0 0 program.instructions.toList).toList

/-- The rule above and below the title of a printed listing. -/
def titleRule : String := "════════════════════════════════════════"

/-- The lines of a printed listing: a title with the program's counts, then its listing. -/
def printedListing (program : Program) : List String :=
  titleRule :: " program"
    :: s!" {program.size} instructions, {program.loopCount} loops, {program.forkCount} forks"
    :: titleRule :: program.listing

end Program

end ForkTape
