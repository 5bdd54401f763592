import ForkTape.Source

/-!
# Instructions found in source text

An instruction stands at a byte offset of a source text when the text, cut there, goes on with one
of its spellings (`Source.Stands`). The scan passes the word for `fork` as a whole and never looks
at the characters inside, and it passes every other character by itself. Nothing escapes it,
because no spelling begins inside the word: scanning finds what is found by asking at every
character whether a spelling begins there (`Source.collect_eq_append_occurrences`).

So the scan finds the instructions that stand in a text, all of them, each of them once and in the
order of their offsets (`Source.instructions_stand`).
-/

namespace ForkTape

/-- A character spells an instruction by itself when it is the instruction's symbol. -/
theorem Instruction.ofChar?_eq_some_iff {char : Char} {instruction : Instruction} :
    ofChar? char = some instruction ↔ instruction.symbol.toList = [char] := by
  constructor
  · intro found
    unfold ofChar? at found
    split at found <;> cases found <;> rfl
  · intro single
    by_cases isFork : instruction = fork
    · subst isFork
      cases single
    · obtain ⟨symbol, spelled, found⟩ := ofChar?_symbol isFork
      rw [spelled, String.toList_singleton, List.singleton_inj] at single
      exact single ▸ found

namespace ForkSpelling

/-- The spellings of `fork`. -/
def forkSpellings : ForkSpelling → List String
  | keyword => ["FORK"]
  | letter => ["f"]
  | both => ["FORK", "f"]

/-- The spellings of an instruction. -/
def spellings (spelling : ForkSpelling) : Instruction → List String
  | .fork => spelling.forkSpellings
  | instruction => [instruction.symbol]

/-- A spelling of the instruction begins `text`. -/
def Begins (spelling : ForkSpelling) (instruction : Instruction) (text : List Char) : Prop :=
  ∃ spelled ∈ spelling.spellings instruction, spelled.toList <+: text

/-- The instruction of which a spelling begins `text`. -/
def instruction? (spelling : ForkSpelling) : List Char → Option Instruction
  | [] => none
  | char :: rest =>
      if spelling.wordBegins (char :: rest) then some .fork else spelling.ofChar? char

variable {spelling : ForkSpelling} {instruction : Instruction} {char : Char} {rest : List Char}

theorem wordBegins_iff {text : List Char} :
    spelling.wordBegins text = true ↔ spelling.admitsWord = true ∧ word <+: text := by
  rw [wordBegins, Bool.and_eq_true, List.isPrefixOf_iff_prefix]

theorem toList_ne_nil_of_mem_spellings :
    ∀ spelled ∈ spelling.spellings instruction, spelled.toList ≠ [] := by
  cases instruction with
  | fork => cases spelling <;> simp [spellings, forkSpellings]
  | _ => simp [spellings, Instruction.symbol]

theorem not_begins_nil : ¬ spelling.Begins instruction [] := by
  rintro ⟨spelled, isSpelling, begins⟩
  exact toList_ne_nil_of_mem_spellings spelled isSpelling (List.prefix_nil.mp begins)

/-- The word and the letter are the spellings of `fork`. -/
theorem begins_fork_iff : spelling.Begins .fork (char :: rest) ↔
    spelling.wordBegins (char :: rest) = true ∨ char = 'f' ∧ spelling.admitsLetter = true := by
  rw [wordBegins_iff]
  cases spelling <;>
    simp [Begins, spellings, forkSpellings, admitsWord, admitsLetter, word, eq_comm]

/-- Any other instruction is spelled by its symbol. -/
theorem begins_iff_of_ne_fork (plain : instruction ≠ .fork) :
    spelling.Begins instruction (char :: rest) ↔ Instruction.ofChar? char = some instruction := by
  obtain ⟨symbol, spelled, _⟩ := Instruction.ofChar?_symbol plain
  have only : spelling.spellings instruction = [instruction.symbol] := by
    cases instruction <;> first | rfl | contradiction
  rw [Instruction.ofChar?_eq_some_iff, Begins, only, spelled]
  simp [eq_comm]

theorem ofChar?_ne_fork (char : Char) : Instruction.ofChar? char ≠ some .fork := by
  rw [Ne, Instruction.ofChar?_eq_some_iff]
  simp [Instruction.symbol]

/-- The word begins with no character that spells an instruction. -/
theorem ofChar?_eq_none_of_wordBegins (begins : spelling.wordBegins (char :: rest) = true) :
    Instruction.ofChar? char = none := by
  have first := (wordBegins_iff.mp begins).2
  rw [word, List.cons_prefix_cons] at first
  rw [← first.1]
  rfl

/-- A single character spells `fork` when it is the letter and the letter is admitted. -/
theorem ofChar?_eq_fork_iff :
    spelling.ofChar? char = some .fork ↔ char = 'f' ∧ spelling.admitsLetter = true := by
  rw [ofChar?]
  cases found : Instruction.ofChar? char with
  | none => simp
  | some other =>
      have notFork : other ≠ .fork := fun isFork => ofChar?_ne_fork char (isFork ▸ found)
      have notLetter : char ≠ 'f' := by
        rintro rfl
        cases found
      simp [notFork, notLetter]

/-- A single character spells any other instruction when it is the instruction's symbol. -/
theorem ofChar?_eq_some_iff_of_ne_fork (plain : instruction ≠ .fork) :
    spelling.ofChar? char = some instruction ↔ Instruction.ofChar? char = some instruction := by
  rw [ofChar?]
  cases found : Instruction.ofChar? char with
  | none => simp [plain.symm]
  | some other => rfl

/-- What is found at a place of the text is the instruction of which a spelling begins there. -/
theorem instruction?_eq_some_iff {text : List Char} :
    spelling.instruction? text = some instruction ↔ spelling.Begins instruction text := by
  cases text with
  | nil => simp [instruction?, not_begins_nil]
  | cons char rest =>
      rw [instruction?]
      by_cases isFork : instruction = .fork
      · subst isFork
        rw [begins_fork_iff]
        split
        · rename_i wordBegins
          simp [wordBegins]
        · rename_i noWord
          simp [noWord, ofChar?_eq_fork_iff]
      · rw [begins_iff_of_ne_fork isFork]
        split
        · rename_i wordBegins
          simp [ofChar?_eq_none_of_wordBegins wordBegins, Ne.symm isFork]
        · exact ofChar?_eq_some_iff_of_ne_fork isFork

/-- No spelling begins inside the word. -/
theorem instruction?_inside (inside : char ∈ word.tail) :
    spelling.instruction? (char :: rest) = none := by
  simp only [word, List.tail_cons, List.mem_cons, List.not_mem_nil, or_false] at inside
  rcases inside with rfl | rfl | rfl <;>
    simp [instruction?, wordBegins, word, ofChar?, Instruction.ofChar?]

end ForkSpelling

namespace Source

open ForkSpelling (word)

/-- The instruction stands in the source text at the byte offset: so many bytes, which are whole
characters, lie before one of its spellings. -/
def Stands (spelling : ForkSpelling) (source : String) (located : Located) : Prop :=
  ∃ before after, ∃ spelled ∈ spelling.spellings located.instruction,
    source = before ++ spelled ++ after ∧ before.utf8ByteSize = located.offset

/-- The instructions found by asking at every character of `text`, the first of which stands at
byte `offset`. -/
def occurrences (spelling : ForkSpelling) (offset : Nat) : List Char → List Located
  | [] => []
  | char :: rest =>
      ((spelling.instruction? (char :: rest)).map (Located.mk · offset)).toList ++
        occurrences spelling (offset + char.utf8Size) rest

variable {spelling : ForkSpelling} {located : Located}

/-- Of the characters of the word only the first is found to spell an instruction. -/
theorem occurrences_word_append (admitted : spelling.admitsWord = true) (offset : Nat)
    (rest : List Char) :
    occurrences spelling offset (word ++ rest) =
      ⟨.fork, offset⟩ :: occurrences spelling (offset + word.length) rest := by
  have found : spelling.instruction? (word ++ rest) = some .fork :=
    if_pos (ForkSpelling.wordBegins_iff.mpr ⟨admitted, List.prefix_append _ _⟩)
  have inside (char : Char) (isInside : char ∈ word.tail) (rest : List Char) :
      spelling.instruction? (char :: rest) = none := ForkSpelling.instruction?_inside isInside
  simp only [word, List.cons_append, List.nil_append] at found ⊢
  simp only [occurrences, found, inside 'O' (by simp [word]), inside 'R' (by simp [word]),
    inside 'K' (by simp [word])]
  rfl

/-- The scan finds what is found by asking at every character. -/
theorem collect_eq_append_occurrences (spelling : ForkSpelling) (found : Array Located)
    (offset : Nat) (text : List Char) :
    collect spelling found offset text = found ++ occurrences spelling offset text := by
  fun_induction collect spelling found offset text with
  | case1 found offset => simp [occurrences]
  | case2 found offset char rest wordBegins ih =>
      obtain ⟨admitted, tail, same⟩ := ForkSpelling.wordBegins_iff.mp wordBegins
      rw [ih, ← same, List.drop_left, occurrences_word_append admitted]
      simp
  | case3 found offset char rest noWord instruction spelled ih =>
      simp [occurrences, ForkSpelling.instruction?, noWord, spelled, ih]
  | case4 found offset char rest noWord unspelled ih =>
      simp [occurrences, ForkSpelling.instruction?, noWord, unspelled, ih]

/-- What is found by asking at every character are the spellings that begin anywhere. -/
theorem mem_occurrences_iff {offset : Nat} {text : List Char} :
    located ∈ occurrences spelling offset text ↔ ∃ before after, text = before ++ after ∧
      spelling.Begins located.instruction after ∧
      offset + (String.ofList before).utf8ByteSize = located.offset := by
  induction text generalizing offset with
  | nil =>
      simp only [occurrences, List.not_mem_nil, false_iff]
      rintro ⟨before, after, empty, begins, _⟩
      obtain ⟨-, rfl⟩ := List.append_eq_nil_iff.mp empty.symm
      exact ForkSpelling.not_begins_nil begins
  | cons char rest ih =>
      have here : located ∈ ((spelling.instruction? (char :: rest)).map
          (Located.mk · offset)).toList ↔
          spelling.Begins located.instruction (char :: rest) ∧ offset = located.offset := by
        rw [Option.mem_toList, Option.map_eq_some_iff]
        constructor
        · rintro ⟨instruction, found, rfl⟩
          exact ⟨ForkSpelling.instruction?_eq_some_iff.mp found, rfl⟩
        · rintro ⟨begins, rfl⟩
          exact ⟨located.instruction, ForkSpelling.instruction?_eq_some_iff.mpr begins, rfl⟩
      rw [occurrences, List.mem_append, here, ih]
      constructor
      · rintro (⟨begins, same⟩ | ⟨before, after, rfl, begins, same⟩)
        · exact ⟨[], char :: rest, rfl, begins, same⟩
        · refine ⟨char :: before, after, rfl, begins, ?_⟩
          rw [String.ofList_cons, String.utf8ByteSize_append, String.utf8ByteSize_singleton,
            ← Nat.add_assoc, same]
      · rintro ⟨before, after, parted, begins, same⟩
        rcases List.cons_eq_append_iff.mp parted with ⟨rfl, rfl⟩ | ⟨before, rfl, rfl⟩
        · exact .inl ⟨begins, same⟩
        · refine .inr ⟨before, after, rfl, begins, ?_⟩
          rwa [String.ofList_cons, String.utf8ByteSize_append, String.utf8ByteSize_singleton,
            ← Nat.add_assoc] at same

/-- The offsets ascend from character to character. -/
theorem occurrences_ascending (spelling : ForkSpelling) (offset : Nat) (text : List Char) :
    ((occurrences spelling offset text).map Located.offset).Pairwise (· < ·) := by
  induction text generalizing offset with
  | nil => exact List.Pairwise.nil
  | cons char rest ih =>
      rw [occurrences, List.map_append, List.pairwise_append]
      refine ⟨?_, ih _, ?_⟩
      · cases spelling.instruction? (char :: rest) <;> simp
      · intro here hereMem later laterMem
        obtain ⟨located, locatedMem, rfl⟩ := List.mem_map.mp laterMem
        obtain ⟨before, _, _, _, same⟩ := mem_occurrences_iff.mp locatedMem
        have here_eq : here = offset := by
          cases found : spelling.instruction? (char :: rest) <;> simp [found] at hereMem
          exact hereMem
        have size_pos := char.utf8Size_pos
        omega

/-- A spelling stands in the source text where it begins what is left of the text. -/
theorem stands_iff {source : String} :
    Stands spelling source located ↔ ∃ before after, source.toList = before ++ after ∧
      spelling.Begins located.instruction after ∧
      0 + (String.ofList before).utf8ByteSize = located.offset := by
  simp only [Nat.zero_add]
  constructor
  · rintro ⟨before, after, spelled, isSpelling, rfl, size⟩
    refine ⟨before.toList, spelled.toList ++ after.toList, ?_,
      ⟨spelled, isSpelling, List.prefix_append _ _⟩, ?_⟩
    · simp only [String.toList_append, List.append_assoc]
    · rwa [String.ofList_toList]
  · rintro ⟨before, _, same, ⟨spelled, isSpelling, after, rfl⟩, size⟩
    refine ⟨String.ofList before, String.ofList after, spelled, isSpelling, ?_, size⟩
    rw [← String.toList_inj, same]
    simp

/-- Scanning a source text finds, in ascending order of offsets, exactly the instructions that
stand in it. -/
theorem instructions_stand (spelling : ForkSpelling) (source : String) :
    ((instructions spelling source).toList.map Located.offset).Pairwise (· < ·) ∧
      ∀ located, located ∈ instructions spelling source ↔ Stands spelling source located := by
  have found : (instructions spelling source).toList = occurrences spelling 0 source.toList := by
    rw [instructions, collect_eq_append_occurrences]
    simp
  constructor
  · rw [found]
    exact occurrences_ascending spelling 0 source.toList
  · intro located
    rw [← Array.mem_toList_iff, found, mem_occurrences_iff, stands_iff]

/-- Beside the letter, the word is found behind the front of another one, and a character of two
bytes counts twice. -/
example : instructions .both "éFOFORKf" = #[⟨.fork, 4⟩, ⟨.fork, 8⟩] := by decide +kernel

end Source

end ForkTape
