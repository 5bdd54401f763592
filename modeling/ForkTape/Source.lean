import ForkTape.Instruction

/-!
# Source text

Source text is prose in which instructions are embedded: whatever spells no instruction is
commentary. Each instruction found is kept with the byte offset, in the UTF-8 form of the text,
at which its spelling begins.

A text is scanned from front to back (`Source.collect`). Where the word for `fork` begins, it is
passed as a whole; any other character is passed by itself, whether it spells an instruction or
not.
-/

namespace ForkTape

/-- How source text spells `fork`. -/
inductive ForkSpelling
  /-- By the word `FORK`. -/
  | keyword
  /-- By the letter `f`. -/
  | letter
  /-- By the word or by the letter. -/
  | both
  deriving DecidableEq, Repr, Inhabited

namespace ForkSpelling

/-- The word that spells `fork`. -/
def word : List Char := ['F', 'O', 'R', 'K']

/-- Whether the word is admitted. -/
def admitsWord : ForkSpelling → Bool
  | keyword | both => true
  | letter => false

/-- Whether the letter is admitted. -/
def admitsLetter : ForkSpelling → Bool
  | letter | both => true
  | keyword => false

/-- Whether the word is admitted and begins `text`. -/
def wordBegins (spelling : ForkSpelling) (text : List Char) : Bool :=
  spelling.admitsWord && word.isPrefixOf text

/-- The instruction that a single character spells. -/
def ofChar? (spelling : ForkSpelling) (char : Char) : Option Instruction :=
  match Instruction.ofChar? char with
  | some instruction => some instruction
  | none => if char == 'f' && spelling.admitsLetter then some .fork else none

end ForkSpelling

/-- An instruction and the byte offset at which its spelling begins. -/
structure Located where
  instruction : Instruction
  offset : Nat
  deriving DecidableEq, Repr, Inhabited

namespace Source

/-- Append to `found` the instructions of `text`, whose first character stands at byte
`offset`. -/
def collect (spelling : ForkSpelling) (found : Array Located) (offset : Nat) :
    List Char → Array Located
  | [] => found
  | char :: rest =>
      if spelling.wordBegins (char :: rest) then
        -- Each character of the word is one byte.
        collect spelling (found.push ⟨.fork, offset⟩) (offset + ForkSpelling.word.length)
          ((char :: rest).drop ForkSpelling.word.length)
      else
        match spelling.ofChar? char with
        | some instruction =>
            collect spelling (found.push ⟨instruction, offset⟩) (offset + char.utf8Size) rest
        | none => collect spelling found (offset + char.utf8Size) rest
termination_by text => text.length
decreasing_by
  · simp only [List.length_drop, List.length_cons, ForkSpelling.word, List.length_nil]
    omega
  all_goals exact Nat.lt_succ_self _

/-- The instructions of a source text, in order. -/
def instructions (spelling : ForkSpelling) (source : String) : Array Located :=
  collect spelling #[] 0 source.toList

end Source

end ForkTape
