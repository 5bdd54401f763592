import ForkTape.Proofs.Program.Loading

/-!
# Instructions written as source text

A sequence of instructions is written as a source text by putting their spellings one after the
other, with nothing in between (`Source.render`). No two spellings run together into a third: each
is passed as a whole, because it is the word for `fork` or a single character, and the scan then
goes on where the next one begins (`Source.occurrences_spelled_append`).

So scanning the text finds the instructions again, and a program that is written and loaded again is
the same but for its places in the text (`Program.load_render`).
-/

namespace ForkTape

/-- The spelling of an instruction, which is its symbol unless it is a `fork`. -/
def Instruction.spelled (forkSpelled : String) : Instruction → String
  | .fork => forkSpelled
  | instruction => instruction.symbol

namespace ForkSpelling

variable {spelling : ForkSpelling} {instruction : Instruction}

theorem spelled_mem_spellings {forkSpelled : String}
    (isSpelling : forkSpelled ∈ spelling.forkSpellings) (instruction : Instruction) :
    instruction.spelled forkSpelled ∈ spelling.spellings instruction := by
  cases instruction with
  | fork => exact isSpelling
  | _ => exact List.mem_singleton_self _

/-- A spelling is the word for `fork`, where it is admitted, or a single character. -/
theorem spelling_cases {spelled : String} (isSpelling : spelled ∈ spelling.spellings instruction) :
    (instruction = .fork ∧ spelling.admitsWord = true ∧ spelled = String.ofList word) ∨
      ∃ char, spelled = String.singleton char := by
  by_cases isFork : instruction = .fork
  · subst isFork
    cases spelling with
    | keyword => exact .inl ⟨rfl, rfl, List.mem_singleton.mp isSpelling⟩
    | letter => exact .inr ⟨'f', List.mem_singleton.mp isSpelling⟩
    | both =>
        rcases List.mem_cons.mp isSpelling with rfl | isLetter
        · exact .inl ⟨rfl, rfl, rfl⟩
        · exact .inr ⟨'f', List.mem_singleton.mp isLetter⟩
  · obtain ⟨char, symbol, _⟩ := Instruction.ofChar?_symbol isFork
    have only : spelled = instruction.symbol := by
      cases instruction <;> first | exact List.mem_singleton.mp isSpelling | contradiction
    exact .inr ⟨char, only.trans symbol⟩

end ForkSpelling

namespace Source

variable {spelling : ForkSpelling} {instruction : Instruction} {forkSpelled : String}

/-- The source text of a sequence of instructions. -/
def render (forkSpelled : String) (sequence : List Instruction) : String :=
  String.join (sequence.map (Instruction.spelled forkSpelled))

theorem render_cons (forkSpelled : String) (instruction : Instruction)
    (rest : List Instruction) : render forkSpelled (instruction :: rest) =
      instruction.spelled forkSpelled ++ render forkSpelled rest := by
  rw [render, List.map_cons, String.join_cons, render]

/-- Where a spelling begins, the instruction is found and the scan goes on behind the spelling. -/
theorem occurrences_spelled_append {spelled : String}
    (isSpelling : spelled ∈ spelling.spellings instruction) (offset : Nat) (rest : List Char) :
    occurrences spelling offset (spelled.toList ++ rest) =
      ⟨instruction, offset⟩ :: occurrences spelling (offset + spelled.utf8ByteSize) rest := by
  rcases ForkSpelling.spelling_cases isSpelling with ⟨rfl, admitted, rfl⟩ | ⟨char, rfl⟩
  · rw [String.toList_ofList, occurrences_word_append admitted]
    rfl
  · have found : spelling.instruction? (char :: rest) = some instruction := by
      apply ForkSpelling.instruction?_eq_some_iff.mpr
      exact ⟨_, isSpelling, by simp⟩
    rw [String.toList_singleton, List.singleton_append, occurrences, found,
      String.utf8ByteSize_singleton]
    rfl

/-- The instructions of a rendered sequence are found where their spellings begin. -/
theorem occurrences_render (isSpelling : forkSpelled ∈ spelling.forkSpellings) (offset : Nat)
    (sequence : List Instruction) :
    occurrences spelling offset (render forkSpelled sequence).toList =
      sequence.mapIdx fun index instruction =>
        ⟨instruction, offset + (render forkSpelled (sequence.take index)).utf8ByteSize⟩ := by
  induction sequence generalizing offset with
  | nil => rfl
  | cons instruction rest ih =>
      rw [render_cons, String.toList_append,
        occurrences_spelled_append (ForkSpelling.spelled_mem_spellings isSpelling instruction),
        ih, List.mapIdx_cons]
      simp only [List.take_succ_cons, render_cons, String.utf8ByteSize_append, Nat.add_assoc]
      rfl

end Source

/-- What is known of the places in a source text does not change which brackets are partners. -/
theorem Pairing.scan_offsets {offsets : Array Nat} (others : Array Nat)
    {slots : Array (Option Nat)} {pending : List Nat} {rest : List Instruction} {pairing : Pairing}
    (paired : scan offsets slots pending rest = .ok pairing) :
    scan others slots pending rest = .ok pairing := by
  fun_induction scan offsets slots pending rest with
  | case1 slots pending last =>
      rw [scan, last]
      exact paired
  | case2 slots pending first last => cases paired
  | case3 slots pending rest ih => exact ih paired
  | case4 slots rest => cases paired
  | case5 slots rest opening pending ih => exact ih paired
  | case6 slots pending instruction rest noOpen noClose ih =>
      rw [scan]
      · exact ih paired
      · exact noOpen
      · exact noClose

namespace Program

variable {spelling : ForkSpelling} {forkSpelled : String}

/-- The program that a sequence with this pairing makes at other places. -/
theorem exists_ofInstructions (program : Program) (offsets : Array Nat) :
    ∃ again, ofInstructions program.instructions offsets = .ok again ∧
      again.instructions = program.instructions ∧ again.pairing = program.pairing := by
  have paired : Pairing.ofInstructions program.instructions offsets = .ok program.pairing :=
    Pairing.scan_offsets offsets program.paired
  refine ⟨⟨program.instructions, offsets, program.pairing, paired⟩, ?_, rfl, rfl⟩
  exact ofInstructions_self ⟨program.instructions, offsets, program.pairing, paired⟩

/-- A sequence of instructions, `fork` in one of the admitted spellings, is found again in its
text, each instruction at the length of the spellings before it. In the word for `fork` the text is
made of the symbols. So every program, from whatever text it was loaded, is loaded again from its
own instructions, with the same partners. -/
theorem load_render (isSpelling : forkSpelled ∈ spelling.forkSpellings) :
    (∀ sequence, (Source.instructions spelling (Source.render forkSpelled sequence)).toList =
      sequence.mapIdx fun index instruction =>
        ⟨instruction, (Source.render forkSpelled (sequence.take index)).utf8ByteSize⟩) ∧
    (∀ sequence, Source.render "FORK" sequence =
      String.join (sequence.map Instruction.symbol)) ∧
    ∀ program : Program, ∃ again,
      load (Source.render forkSpelled program.instructions.toList) spelling = .ok again ∧
        again.instructions = program.instructions ∧ again.pairing = program.pairing := by
  have found (sequence : List Instruction) :
      (Source.instructions spelling (Source.render forkSpelled sequence)).toList =
        sequence.mapIdx fun index instruction =>
          ⟨instruction, (Source.render forkSpelled (sequence.take index)).utf8ByteSize⟩ := by
    rw [Source.toList_instructions, Source.occurrences_render isSpelling]
    simp only [Nat.zero_add]
  refine ⟨found, ?_, ?_⟩
  · intro sequence
    have symbols : Instruction.spelled "FORK" = Instruction.symbol := by
      funext instruction
      cases instruction <;> rfl
    rw [Source.render, symbols]
  · intro program
    have same : (Source.instructions spelling
        (Source.render forkSpelled program.instructions.toList)).map Located.instruction =
        program.instructions := by
      apply Array.toList_inj.mp
      rw [Array.toList_map, found]
      apply List.ext_getElem?
      intro index
      rw [List.getElem?_map, List.getElem?_mapIdx, Option.map_map]
      exact Option.map_id'
    rw [load, ofLocated, same]
    exact program.exists_ofInstructions _

/-- Where both spellings of `fork` are admitted, two of them in a row are found apart, in either
spelling, and a loop with a `fork` in it is loaded again. -/
theorem forks_load_render :
    ("f" ∈ ForkSpelling.both.forkSpellings ∧ "FORK" ∈ ForkSpelling.both.forkSpellings) ∧
    (Source.instructions .both (Source.render "f" [.fork, .fork, .inc])).toList =
      [⟨.fork, 0⟩, ⟨.fork, 1⟩, ⟨.inc, 2⟩] ∧
    (Source.instructions .both (Source.render "FORK" [.fork, .fork, .inc])).toList =
      [⟨.fork, 0⟩, ⟨.fork, 4⟩, ⟨.inc, 8⟩] ∧
    ∃ program again, load "é[ f ]" .both = .ok program ∧
      load (Source.render "FORK" program.instructions.toList) .both = .ok again ∧
      again.instructions = program.instructions ∧ again.pairing = program.pairing := by
  have letter : "f" ∈ ForkSpelling.both.forkSpellings := by decide
  have word : "FORK" ∈ ForkSpelling.both.forkSpellings := by decide
  refine ⟨⟨letter, word⟩, ?_, ?_, ?_⟩
  · exact (load_render letter).1 [.fork, .fork, .inc]
  · exact (load_render word).1 [.fork, .fork, .inc]
  · have loads : (load "é[ f ]" .both).isOk = true := by decide +kernel
    cases loaded : load "é[ f ]" .both with
    | error error =>
        rw [loaded] at loads
        contradiction
    | ok program =>
        obtain ⟨again, loadedAgain, same⟩ := (load_render word).2.2 program
        exact ⟨program, again, rfl, loadedAgain, same⟩

end Program

end ForkTape
