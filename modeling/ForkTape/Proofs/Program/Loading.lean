import ForkTape.Proofs.Bracket.Blame
import ForkTape.Proofs.Bracket.Omission
import ForkTape.Proofs.Source

/-!
# Which source texts load

Nothing but a bracket is spelled by a bracket, however `fork` is spelled, and a bracket is spelled
by nothing else. So the brackets among the instructions of a text are the brackets of the text, at
their offsets (`Source.bracketsOf_instructions`).

Whether a text loads therefore does not depend on how `fork` is spelled, and neither does the
error when it does not load, but for the index of the bracket that is blamed
(`Program.load_determined_by_brackets`).
-/

namespace ForkTape

/-- The bracket that a character spells. -/
def Instruction.bracketOfChar? : Char → Option Instruction
  | '[' => some loopOpen
  | ']' => some loopClose
  | _ => none

theorem Instruction.filter_isBracket_ofChar? (char : Char) :
    (ofChar? char).filter isBracket = bracketOfChar? char := by
  unfold ofChar?
  split <;> try rfl
  rename_i notOpen notClose
  unfold bracketOfChar?
  split
  · exact absurd rfl notOpen
  · exact absurd rfl notClose
  · rfl

/-- Where an instruction is found to be spelled it is a bracket if the character there is one. -/
theorem ForkSpelling.filter_isBracket_instruction? (spelling : ForkSpelling) (char : Char)
    (rest : List Char) :
    (spelling.instruction? (char :: rest)).filter Instruction.isBracket =
      Instruction.bracketOfChar? char := by
  rw [← Instruction.filter_isBracket_ofChar?, instruction?]
  split
  · rename_i wordBegins
    rw [ofChar?_eq_none_of_wordBegins wordBegins]
    rfl
  · rw [ofChar?]
    cases Instruction.ofChar? char with
    | some instruction => rfl
    | none =>
        rw [Option.filter_none]
        dsimp only
        split <;> rfl

namespace Source

open ForkTape.Bracket

/-- The brackets of a source text, whatever stands between them. -/
def brackets (source : String) : List Instruction :=
  source.toList.filterMap Instruction.bracketOfChar?

/-- The brackets of `text`, the first character of which stands at byte `offset`. -/
def locatedBrackets (offset : Nat) : List Char → List Located
  | [] => []
  | char :: rest =>
      ((Instruction.bracketOfChar? char).map (Located.mk · offset)).toList ++
        locatedBrackets (offset + char.utf8Size) rest

theorem map_instruction_locatedBrackets (offset : Nat) (text : List Char) :
    (locatedBrackets offset text).map Located.instruction =
      text.filterMap Instruction.bracketOfChar? := by
  induction text generalizing offset with
  | nil => rfl
  | cons char rest ih =>
      rw [locatedBrackets, List.map_append, ih, List.filterMap_cons]
      cases Instruction.bracketOfChar? char <;> rfl

/-- Of what is found by asking at every character, the brackets do not depend on how `fork` is
spelled. -/
theorem bracketsOf_occurrences (spelling : ForkSpelling) (offset : Nat) (text : List Char) :
    bracketsOf (occurrences spelling offset text) = locatedBrackets offset text := by
  induction text generalizing offset with
  | nil => rfl
  | cons char rest ih =>
      rw [occurrences, locatedBrackets, bracketsOf_append, ih,
        ← spelling.filter_isBracket_instruction? char rest]
      congr 1
      cases spelling.instruction? (char :: rest) with
      | none => rfl
      | some instruction => cases instruction <;> rfl

theorem toList_instructions (spelling : ForkSpelling) (source : String) :
    (instructions spelling source).toList = occurrences spelling 0 source.toList := by
  rw [instructions, collect_eq_append_occurrences]
  simp

/-- The brackets among the instructions of a text are the brackets of the text. -/
theorem bracketsOf_instructions (spelling : ForkSpelling) (source : String) :
    bracketsOf (instructions spelling source).toList = locatedBrackets 0 source.toList := by
  rw [toList_instructions, bracketsOf_occurrences]

/-- As many instructions stand before one as its index says. -/
theorem countP_offset_lt {found : List Located}
    (ascending : (found.map Located.offset).Pairwise (· < ·)) {index : Nat} {located : Located}
    (isThere : found[index]? = some located) :
    found.countP (fun other => decide (other.offset < located.offset)) = index := by
  induction found generalizing index with
  | nil => contradiction
  | cons first rest ih =>
      rw [List.map_cons, List.pairwise_cons] at ascending
      cases index with
      | zero =>
          cases isThere
          rw [List.countP_eq_zero]
          intro other otherMem
          rw [decide_eq_true_iff, Nat.not_lt]
          rcases List.mem_cons.mp otherMem with rfl | later
          · exact Nat.le_refl _
          · exact Nat.le_of_lt (ascending.1 _ (List.mem_map_of_mem later))
      | succ index =>
          rw [List.getElem?_cons_succ] at isThere
          have before : first.offset < located.offset :=
            ascending.1 _ (List.mem_map_of_mem (List.mem_of_getElem? isThere))
          simp [before, ih ascending.2 isThere]

/-- A bracket stands where its character does. -/
theorem exists_symbol_of_stands {spelling : ForkSpelling} {source : String} {located : Located}
    (stands : Stands spelling source located)
    (isBracket : located.instruction.isBracket = true) :
    ∃ before after, source = before ++ located.instruction.symbol ++ after ∧
      before.utf8ByteSize = located.offset := by
  obtain ⟨before, after, spelled, isSpelling, same, size⟩ := stands
  have only : spelled = located.instruction.symbol := by
    rcases located with ⟨instruction, offset⟩
    cases instruction <;> first | exact List.mem_singleton.mp isSpelling | contradiction
  exact ⟨before, after, only ▸ same, size⟩

end Source

namespace Program

open ForkTape.Bracket Source

theorem complaint?_ofInstructions (instructions : Array Instruction) (offsets : Array Nat) :
    complaint? (ofInstructions instructions offsets) =
      complaint? (Pairing.ofInstructions instructions offsets) := by
  unfold ofInstructions
  split <;> simp [complaint?, *]

theorem ofInstructions_eq_error_iff {instructions : Array Instruction} {offsets : Array Nat}
    {error : BracketError} : ofInstructions instructions offsets = .error error ↔
      Pairing.ofInstructions instructions offsets = .error error := by
  unfold ofInstructions
  split <;> simp [*]

/-- A loaded program has the instructions of the text, at their offsets. -/
theorem map_instructions_of_load {source : String} {spelling : ForkSpelling} {program : Program}
    (loaded : load source spelling = .ok program) :
    (Source.instructions spelling source).map Located.instruction = program.instructions ∧
      (Source.instructions spelling source).map Located.offset = program.offsets := by
  rw [load, ofLocated, ofInstructions] at loaded
  split at loaded
  · cases loaded
    exact ⟨rfl, rfl⟩
  · contradiction

/-- However `fork` is spelled, a text is complained of alike. -/
theorem complaint?_load (source : String) (spelling other : ForkSpelling) :
    complaint? (load source spelling) = complaint? (load source other) := by
  simp only [load, ofLocated, complaint?_ofInstructions, Bracket.complaint?_ofInstructions,
    bracketsOf_instructions]

/-- A text does not load when its brackets are not balanced. -/
theorem exists_load_error_iff (source : String) (spelling : ForkSpelling) :
    (∃ error, load source spelling = .error error) ↔ ¬ Balanced (brackets source) := by
  have bracketsEq : ((Source.instructions spelling source).map Located.instruction).toList.filter
      Instruction.isBracket = brackets source := by
    rw [brackets, ← map_instruction_locatedBrackets 0, ← bracketsOf_instructions spelling,
      bracketsOf, Array.toList_map, List.filter_map]
    rfl
  rw [← bracketsEq, balanced_filter_iff fun _ => id]
  simp only [load, ofLocated, ofInstructions_eq_error_iff]
  constructor
  · rintro ⟨error, failed⟩
    exact (Pairing.unmatched_of_error failed).not_balanced
  · intro unbalanced
    cases result : Pairing.ofInstructions ((Source.instructions spelling source).map
        Located.instruction) ((Source.instructions spelling source).map Located.offset) with
    | ok pairing =>
        exact absurd (Pairing.balanced_of_scanned (Pairing.scanned_of_paired result)) unbalanced
    | error error => exact ⟨error, rfl⟩

/-- What an error says of a source text. -/
structure Blames (source : String) (spelling : ForkSpelling) (error : BracketError) : Prop where
  /-- The bracket that is blamed is in the text, at the offset. -/
  bracket : ∃ before after, source = before ++ error.bracket.symbol ++ after ∧
    before.utf8ByteSize = error.offset
  /-- As many instructions of the text stand before it as the index says. -/
  index : error.index = (Source.instructions spelling source).toList.countP
    fun located => decide (located.offset < error.offset)

/-- The bracket that is blamed is one of the instructions of the text. -/
theorem exists_located_of_load_error {source : String} {spelling : ForkSpelling}
    {error : BracketError} (failed : load source spelling = .error error) :
    ∃ located, (Source.instructions spelling source).toList[error.index]? = some located ∧
      located.instruction = error.bracket ∧ located.offset = error.offset := by
  obtain ⟨blamed, offset⟩ := blamed_of_error (ofInstructions_eq_error_iff.mp failed)
  rw [Array.getElem?_map, Option.map_eq_some_iff] at blamed
  obtain ⟨located, isThere, same⟩ := blamed
  refine ⟨located, Array.getElem?_toList ▸ isThere, same, ?_⟩
  rw [offset, Pairing.reportedOffset, Array.getElem?_map, isThere]
  rfl

theorem blames_of_load_error {source : String} {spelling : ForkSpelling} {error : BracketError}
    (failed : load source spelling = .error error) : Blames source spelling error := by
  obtain ⟨located, isThere, same, offset⟩ := exists_located_of_load_error failed
  rw [toList_instructions] at isThere
  constructor
  · rw [← same, ← offset]
    apply exists_symbol_of_stands
    · exact stands_iff.mpr (mem_occurrences_iff.mp (List.mem_of_getElem? isThere))
    · rw [same]
      cases error <;> rfl
  · rw [← offset, toList_instructions]
    exact (countP_offset_lt (occurrences_ascending spelling 0 source.toList) isThere).symm

/-- A text does not load, however `fork` is spelled, when its brackets are not balanced. The error
then points at a bracket of the text and tells its index among the instructions. With another
spelling of `fork` it is the same error, but for that index. -/
theorem load_determined_by_brackets (source : String) (spelling : ForkSpelling) :
    ((∃ error, load source spelling = .error error) ↔ ¬ Balanced (brackets source)) ∧
    ∀ error, load source spelling = .error error →
      Blames source spelling error ∧
      ∀ other, ∃ index, load source other = .error (error.withIndex index) := by
  refine ⟨exists_load_error_iff source spelling, ?_⟩
  intro error failed
  refine ⟨blames_of_load_error failed, ?_⟩
  intro other
  exact exists_withIndex_of_complaint? (complaint?_load source spelling other) failed

/-- The second `]` is blamed whether the letter in the loop is a `fork` or not. The character
before the loop takes two bytes. -/
theorem load_second_close :
    load "é[f]]" .letter = .error (.unmatchedClose 3 5) ∧
    Blames "é[f]]" .letter (.unmatchedClose 3 5) ∧
    load "é[f]]" .keyword = .error (.unmatchedClose 2 5) ∧
    Blames "é[f]]" .keyword (.unmatchedClose 2 5) := by
  have letter : load "é[f]]" .letter = .error (.unmatchedClose 3 5) :=
    ofInstructions_eq_error_iff.mpr (by decide +kernel)
  have keyword : load "é[f]]" .keyword = .error (.unmatchedClose 2 5) :=
    ofInstructions_eq_error_iff.mpr (by decide +kernel)
  exact ⟨letter, ((load_determined_by_brackets "é[f]]" .letter).2 _ letter).1,
    keyword, ((load_determined_by_brackets "é[f]]" .keyword).2 _ keyword).1⟩

end Program

end ForkTape
