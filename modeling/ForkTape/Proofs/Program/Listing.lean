import ForkTape.Listing
import ForkTape.Proofs.Bracket.Depth
import ForkTape.Proofs.Program.Loading
import ForkTape.Proofs.Text.Padding

/-!
# Reading listings

A listing counts the loops it is inside with a counter that falls with every `]` and cannot fall
below zero. In a program it never would: the counter is the number of pairs around an instruction,
and one more before a `]` (`Program.counter_eq`). So a listing has one line for each instruction, as
deep as the pairs around it are many, and both ends of a loop are equally deep
(`Program.laidOut`).

A line is read from left to right (`Line.text_injective`): its margin ends at the first digit, its
index at the next blank, the symbol has a fixed width, and what may follow begins in two different
ways. A line begins with a digit and a separator does not, so the lines of a listing are read back
from it, and the whole program from the lines (`Program.listing_faithful`).
-/

namespace ForkTape.Program

open ForkTape.Bracket

/-- What a line of a listing tells. -/
structure Line where
  depth : Nat
  index : Nat
  instruction : Instruction
  partner? : Option Nat
  offset? : Option Nat
  deriving DecidableEq, Repr

namespace Line

/-- The mark at the head of a loop. -/
def mark (instruction : Instruction) : String :=
  if instruction = .loopOpen then "► " else "  "

/-- The part that names the partner of a bracket. -/
def partnerText : Option Nat → String
  | some partner => " -> " ++ Text.zeroPadded 4 partner
  | none => ""

/-- The part that names the source offset. -/
def offsetText : Option Nat → String
  | some offset => "  ; @" ++ toString offset
  | none => ""

/-- The text of a line. -/
def text (line : Line) : String :=
  margin line.depth ++ Text.zeroPadded 4 line.index ++ " " ++ mark line.instruction ++
    Text.padEnd 4 line.instruction.symbol ++ partnerText line.partner? ++ offsetText line.offset?

/-- A line with the separator before it, if it has one. -/
def entry (line : Line) : List String :=
  (if line.instruction = .loopOpen then [separator line.depth] else []) ++ [line.text]

section Reading

/-- The columns of the mark and the symbol. -/
def heading (instruction : Instruction) : List Char :=
  (mark instruction).toList ++ (Text.padEnd 4 instruction.symbol).toList

theorem heading_inj {first second : Instruction} (same : heading first = heading second) :
    first = second := by
  cases first <;> cases second <;> first | rfl | exact absurd same (by decide)

theorem length_heading (instruction : Instruction) : (heading instruction).length = 6 := by
  cases instruction <;> rfl

@[simp]
theorem toList_partnerText_none : (partnerText none).toList = [] :=
  rfl

@[simp]
theorem toList_partnerText_some (partner : Nat) : (partnerText (some partner)).toList =
    ' ' :: '-' :: '>' :: ' ' :: (Text.zeroPadded 4 partner).toList := by
  rw [partnerText, String.toList_append]
  rfl

@[simp]
theorem toList_offsetText_none : (offsetText none).toList = [] :=
  rfl

@[simp]
theorem toList_offsetText_some (offset : Nat) : (offsetText (some offset)).toList =
    ' ' :: ' ' :: ';' :: ' ' :: '@' :: (toString offset).toList := by
  rw [offsetText, String.toList_append]
  rfl

theorem offsetText_inj {first second : Option Nat}
    (same : (offsetText first).toList = (offsetText second).toList) : first = second := by
  cases first with
  | none =>
      cases second with
      | none => rfl
      | some second => simp at same
  | some first =>
      cases second with
      | none => simp at same
      | some second =>
          simp only [toList_offsetText_some, List.cons.injEq, true_and] at same
          rw [Text.toString_inj same]

theorem head?_offsetText (offset? : Option Nat) :
    ∀ char ∈ (offsetText offset?).toList.head?, char = ' ' := by
  cases offset? <;> simp

/-- Where the partner is named, the second character says so. -/
theorem partnerText_append_inj {first second offset other : Option Nat}
    (same : (partnerText first).toList ++ (offsetText offset).toList =
      (partnerText second).toList ++ (offsetText other).toList) :
    first = second ∧ offset = other := by
  cases first with
  | none =>
      cases second with
      | none => exact ⟨rfl, offsetText_inj same⟩
      | some second => cases offset <;> simp at same
  | some first =>
      cases second with
      | none => cases other <;> simp at same
      | some second =>
          simp only [toList_partnerText_some, List.cons_append, List.cons.injEq, true_and] at same
          obtain ⟨sameWord, sameRest⟩ := Text.word_append_inj
            (Text.blank_notMem_zeroPadded 4 first) (Text.blank_notMem_zeroPadded 4 second)
            (head?_offsetText offset) (head?_offsetText other) same
          rw [Text.zeroPadded_inj sameWord, offsetText_inj sameRest]
          exact ⟨rfl, rfl⟩

/-- What stands behind the index. -/
theorem heading_append_inj {first second : Line}
    (same : heading first.instruction ++ ((partnerText first.partner?).toList ++
        (offsetText first.offset?).toList) =
      heading second.instruction ++ ((partnerText second.partner?).toList ++
        (offsetText second.offset?).toList)) :
    first.instruction = second.instruction ∧ first.partner? = second.partner? ∧
      first.offset? = second.offset? := by
  obtain ⟨sameHeading, sameRest⟩ := List.append_inj same
    ((length_heading _).trans (length_heading _).symm)
  exact ⟨heading_inj sameHeading, partnerText_append_inj sameRest⟩

/-- A line is its margin, its index and, after a blank, the rest. -/
theorem toList_text (line : Line) : line.text.toList =
    List.replicate (2 * line.depth) ' ' ++ ((Text.zeroPadded 4 line.index).toList ++
      ' ' :: (heading line.instruction ++ ((partnerText line.partner?).toList ++
        (offsetText line.offset?).toList))) := by
  simp [text, margin, heading, String.toList_append, List.append_assoc]

theorem text_injective : Function.Injective text := by
  intro first second same
  have sameChars := congrArg String.toList same
  rw [toList_text, toList_text] at sameChars
  -- The columns are taken off one after the other, each with what tells where it ends.
  obtain ⟨margins, sameChars⟩ := Text.blanks_append_inj
    (Text.head?_zeroPadded_append_ne ' ' (by decide) 4 first.index _)
    (Text.head?_zeroPadded_append_ne ' ' (by decide) 4 second.index _) sameChars
  obtain ⟨indices, sameChars⟩ := Text.word_append_inj
    (Text.blank_notMem_zeroPadded 4 first.index) (Text.blank_notMem_zeroPadded 4 second.index)
    (by simp) (by simp) sameChars
  obtain ⟨instructions, partners, offsets⟩ := heading_append_inj (List.cons.inj sameChars).2
  cases first
  cases second
  simp only [mk.injEq]
  exact ⟨Nat.eq_of_mul_eq_mul_left Nat.two_pos margins, Text.zeroPadded_inj indices, instructions,
    partners, offsets⟩

/-- Where a line has its index, a separator has a corner. -/
theorem separator_ne_text (depth : Nat) (line : Line) : separator depth ≠ line.text := by
  intro same
  have sameChars := congrArg String.toList same
  have corner : (separator depth).toList = List.replicate (2 * depth + 6) ' ' ++
      '┌' :: List.replicate 34 '─' := by
    rw [separator, margin, String.toList_append, String.toList_ofList, List.replicate_add,
      List.append_assoc]
    rfl
  rw [toList_text, corner] at sameChars
  obtain ⟨_, sameRest⟩ := Text.blanks_append_inj (by simp)
    (Text.head?_zeroPadded_append_ne ' ' (by decide) 4 line.index _) sameChars
  apply Text.head?_zeroPadded_append_ne '┌' (by decide) 4 line.index
  rw [← sameRest]
  rfl

/-- A line is read back from the beginning of a listing. -/
theorem entry_append_inj {first second : Line} {rest other : List String}
    (same : first.entry ++ rest = second.entry ++ other) : first = second ∧ rest = other := by
  unfold entry at same
  by_cases firstHead : first.instruction = .loopOpen
  · by_cases secondHead : second.instruction = .loopOpen
    · simp only [firstHead, secondHead, if_true, List.cons_append, List.nil_append,
        List.cons.injEq] at same
      exact ⟨text_injective same.2.1, same.2.2⟩
    · simp only [firstHead, secondHead, if_true, if_false, List.cons_append, List.nil_append,
        List.cons.injEq] at same
      exact absurd same.1 (separator_ne_text _ _)
  · by_cases secondHead : second.instruction = .loopOpen
    · simp only [firstHead, secondHead, if_true, if_false, List.cons_append, List.nil_append,
        List.cons.injEq] at same
      exact absurd same.1.symm (separator_ne_text _ _)
    · simp only [firstHead, secondHead, if_false, List.cons_append, List.nil_append,
        List.cons.injEq] at same
      exact ⟨text_injective same.1, same.2⟩

/-- Lines are read back from the listing they make. -/
theorem flatMap_entry_injective : Function.Injective (List.flatMap entry) := by
  intro first second same
  induction first generalizing second with
  | nil =>
      cases second with
      | nil => rfl
      | cons line second => simp [entry] at same
  | cons line first ih =>
      cases second with
      | nil => simp [entry] at same
      | cons next second =>
          rw [List.flatMap_cons, List.flatMap_cons] at same
          obtain ⟨rfl, sameRest⟩ := entry_append_inj same
          rw [ih sameRest]

end Reading

end Line

/-- The line of an instruction inside `depth` loops. -/
def lineAt (program : Program) (depth index : Nat) (instruction : Instruction) : Line where
  depth := depth
  index := index
  instruction := instruction
  partner? := program.partner? index
  offset? := program.offset? index

/-- The lines of a program, one for each instruction, as deep as the pairs around it are many. -/
def lines (program : Program) : List Line :=
  program.instructions.toList.mapIdx fun index =>
    program.lineAt (program.pairing.enclosing index) index

/-- How a listing counts the loops it is inside. -/
def depthAfter (depth : Nat) : Instruction → Nat
  | .loopOpen => depth + 1
  | .loopClose => depth - 1
  | _ => depth

/-- What a listing has counted when it comes to `index`. -/
def counter (program : Program) (index : Nat) : Nat :=
  (program.instructions.toList.take index).foldl depthAfter 0

/-- The listing of a program is laid out as its loops are. -/
structure LaidOut (program : Program) : Prop where
  /-- Every instruction has one line, and the head of a loop an equally deep separator before it. -/
  entries : program.listing = program.lines.flatMap Line.entry
  /-- The counter is what the listing goes on with, wherever it has come to. -/
  counted : ∀ index, listFrom program #[] 0 0 program.instructions.toList =
    listFrom program (listFrom program #[] 0 0 (program.instructions.toList.take index))
      (program.counter index) index (program.instructions.toList.drop index)
  /-- There is always something for a `]` to take away. -/
  unclipped : ∀ index, program.instruction? index = some .loopClose →
    program.counter index = program.pairing.enclosing index + 1
  /-- The lines of two partners are equally deep. -/
  partners : ∀ opening closing, (opening, closing) ∈ program.pairing.pairs →
    ∃ first last, program.lines[opening]? = some first ∧ program.lines[closing]? = some last ∧
      first.depth = last.depth

section Counter

variable {program : Program}

theorem entry_lineAt (depth index : Nat) (instruction : Instruction) :
    (program.lineAt depth index instruction).entry =
      (if instruction = .loopOpen then [separator depth] else []) ++
        [program.listingLine depth index instruction] :=
  rfl

/-- What a listing has for an instruction does not depend on where it goes on. -/
theorem listFrom_cons (lines : Array String) (depth index : Nat) (instruction : Instruction)
    (rest : List Instruction) :
    listFrom program lines depth index (instruction :: rest) =
      listFrom program
        (lines ++ (program.lineAt (if instruction = .loopClose then depth - 1 else depth) index
          instruction).entry)
        (depthAfter depth instruction) (index + 1) rest := by
  cases instruction <;> simp [listFrom, depthAfter, entry_lineAt]

theorem listFrom_append (lines : Array String) (depth index : Nat)
    (first rest : List Instruction) :
    listFrom program lines depth index (first ++ rest) =
      listFrom program (listFrom program lines depth index first)
        (first.foldl depthAfter depth) (index + first.length) rest := by
  induction first generalizing lines depth index with
  | nil => rfl
  | cons instruction first ih =>
      rw [List.cons_append, listFrom_cons, listFrom_cons, ih, List.foldl_cons, List.length_cons,
        Nat.add_assoc, Nat.add_comm 1]

/-- The counter falls as the level does, because the level is never below zero. -/
theorem counter_eq_level (program : Program) (index : Nat) :
    (program.counter index : Int) = level (program.instructions.toList.take index) := by
  have scanned := Pairing.scanned_of_paired program.paired
  induction index with
  | zero => rfl
  | succ index ih =>
      have nonneg := scanned.prefixes (index + 1)
      unfold counter at ih ⊢
      rw [List.take_add_one] at nonneg ⊢
      cases found : program.instructions.toList[index]? with
      | none => simpa using ih
      | some instruction =>
          rw [found, Option.toList_some] at nonneg
          rw [Option.toList_some, List.foldl_append, List.foldl_cons, List.foldl_nil]
          cases instruction with
          | loopOpen =>
              rw [level_append_loopOpen, ← ih]
              rfl
          | loopClose =>
              -- The counter cannot be zero here, because the level stays nonnegative after the `]`.
              rw [level_append_loopClose] at nonneg ⊢
              rw [depthAfter]
              omega
          | _ =>
              rw [level_append_of_not_isBracket rfl, ← ih]
              rfl

theorem counter_eq (program : Program) (index : Nat) :
    program.counter index = program.pairing.enclosing index +
      if program.instruction? index = some .loopClose then 1 else 0 := by
  have counted := counter_eq_level program index
  rw [Pairing.level_take (Pairing.scanned_of_paired program.paired), Array.getElem?_toList]
    at counted
  unfold instruction?
  split_ifs at counted ⊢ <;> exact Int.ofNat_inj.mp counted

/-- An instruction is listed as deep as the pairs around it are many. -/
theorem listed_depth {index : Nat} {instruction : Instruction}
    (found : program.instruction? index = some instruction) :
    (if instruction = .loopClose then program.counter index - 1 else program.counter index) =
      program.pairing.enclosing index := by
  rw [counter_eq]
  simp only [found, Option.some.injEq]
  split_ifs <;> rfl

end Counter

section Layout

theorem getElem?_lines (program : Program) (index : Nat) : program.lines[index]? =
    (program.instruction? index).map
      (program.lineAt (program.pairing.enclosing index) index) := by
  rw [lines, List.getElem?_mapIdx, Array.getElem?_toList, instruction?]

/-- A listing that has come to `index` has the entries of the lines before it. -/
theorem toList_listFrom_take (program : Program) (index : Nat) :
    (listFrom program #[] 0 0 (program.instructions.toList.take index)).toList =
      (program.lines.take index).flatMap Line.entry := by
  induction index with
  | zero => rfl
  | succ index ih =>
      rw [List.take_add_one, List.take_add_one, List.flatMap_append, ← ih, getElem?_lines,
        Array.getElem?_toList, ← instruction?]
      cases found : program.instruction? index with
      | none => simp
      | some instruction =>
          have within : (program.instructions.toList.take index).length = index := by
            obtain ⟨lt, _⟩ := Array.getElem?_eq_some_iff.mp found
            rw [List.length_take, Array.length_toList, Nat.min_eq_left (Nat.le_of_lt lt)]
          rw [Option.toList_some, listFrom_append, ← counter, within, listFrom_cons,
            listed_depth found, listFrom, Nat.zero_add, Array.toList_appendList]
          simp

/-- A listing goes on from any instruction with what it has counted before it. -/
theorem listFrom_interrupted (program : Program) (index : Nat) :
    listFrom program #[] 0 0 program.instructions.toList =
      listFrom program (listFrom program #[] 0 0 (program.instructions.toList.take index))
        (program.counter index) index (program.instructions.toList.drop index) := by
  have parts := @listFrom_append program #[] 0 0
    (program.instructions.toList.take index) (program.instructions.toList.drop index)
  rw [List.take_append_drop, Nat.zero_add, ← counter] at parts
  rw [parts]
  rcases Nat.lt_or_ge program.instructions.toList.length index with beyond | within
  · rw [List.drop_of_length_le (Nat.le_of_lt beyond)]
    rfl
  · rw [List.length_take, Nat.min_eq_left within]

theorem laidOut (program : Program) : program.LaidOut where
  entries := by
    have whole := toList_listFrom_take program program.instructions.toList.length
    have length : program.lines.length = program.instructions.toList.length := List.length_mapIdx
    rwa [List.take_length, ← length, List.take_length] at whole
  counted := listFrom_interrupted program
  unclipped index closed := by
    rw [counter_eq, if_pos closed]
  partners opening closing pairMem := by
    have scanned := Pairing.scanned_of_paired program.paired
    have encloses := (Pairing.mem_pairs_iff_encloses scanned).mp pairMem
    have opened := encloses.opened
    have closed := encloses.closed
    rw [Array.getElem?_toList] at opened closed
    refine ⟨program.lineAt (program.pairing.enclosing opening) opening .loopOpen,
      program.lineAt (program.pairing.enclosing closing) closing .loopClose, ?_, ?_,
      Pairing.enclosing_ends scanned encloses⟩
    · rw [getElem?_lines, instruction?, opened, Option.map_some]
    · rw [getElem?_lines, instruction?, closed, Option.map_some]

end Layout

section Faithful

variable {source : String} {spelling : ForkSpelling} {program : Program}

/-- A loaded program has an offset for every instruction, and no others. -/
theorem size_offsets_of_load (loaded : load source spelling = .ok program) :
    program.offsets.size = program.instructions.size := by
  obtain ⟨instructions, offsets⟩ := map_instructions_of_load loaded
  rw [← instructions, ← offsets, Array.size_map, Array.size_map]

theorem instructions_of_lines (program : Program) :
    program.lines.map Line.instruction = program.instructions.toList := by
  apply List.ext_getElem?
  intro index
  rw [List.getElem?_map, getElem?_lines, Option.map_map, Array.getElem?_toList, ← instruction?]
  exact Option.map_id'

theorem offset_of_lines (loaded : load source spelling = .ok program) (index : Nat) :
    program.offsets[index]? = program.lines[index]?.bind Line.offset? := by
  rw [getElem?_lines]
  cases found : program.instruction? index with
  | none =>
      have beyond := Array.getElem?_eq_none_iff.mp found
      exact Array.getElem?_eq_none (by rwa [size_offsets_of_load loaded])
  | some instruction => rfl

/-- A loaded program is the only one with its lines. -/
theorem eq_of_lines {otherSource : String} {otherSpelling : ForkSpelling} {other : Program}
    (loaded : load source spelling = .ok program)
    (otherLoaded : load otherSource otherSpelling = .ok other)
    (same : other.lines = program.lines) : other = program := by
  apply ext_instructions
  · apply Array.toList_inj.mp
    rw [← instructions_of_lines, same, instructions_of_lines]
  · apply Array.ext_getElem?
    intro index
    rw [offset_of_lines otherLoaded, same, offset_of_lines loaded]

/-- The listing of a loaded program has a line for every instruction and, directly before the line
of a `[`, a separator, both indented by the number of pairs around the instruction. The counter from
which they are indented always has something left for a `]` to take away. No other program that a
source text loads to has the same listing. -/
theorem listing_faithful (loaded : load source spelling = .ok program) :
    program.LaidOut ∧
    ∀ (otherSource : String) (otherSpelling : ForkSpelling) (other : Program),
      load otherSource otherSpelling = .ok other → other.listing = program.listing →
        other = program := by
  refine ⟨program.laidOut, ?_⟩
  intro otherSource otherSpelling other otherLoaded same
  rw [other.laidOut.entries, program.laidOut.entries] at same
  exact eq_of_lines loaded otherLoaded (Line.flatMap_entry_injective same)

/-- A loop behind one instruction, listed alike however `fork` is spelled. -/
theorem loop_listing_faithful : ∃ program other,
    load "+[-]" .keyword = .ok program ∧ load "+[-]" .letter = .ok other ∧
    program.listing =
      ["0000   +     ; @0",
        "      ┌──────────────────────────────────",
        "0001 ► [    -> 0003  ; @1",
        "  0002   -     ; @2",
        "0003   ]    -> 0001  ; @3"] ∧
    other.listing = program.listing ∧ program.LaidOut ∧ other = program := by
  have keyword : (load "+[-]" .keyword).map listing = .ok
      ["0000   +     ; @0",
        "      ┌──────────────────────────────────",
        "0001 ► [    -> 0003  ; @1",
        "  0002   -     ; @2",
        "0003   ]    -> 0001  ; @3"] := by decide +kernel
  have letter : (load "+[-]" .letter).map listing = (load "+[-]" .keyword).map listing := by
    decide +kernel
  cases loaded : load "+[-]" .keyword with
  | error error =>
      rw [loaded] at keyword
      contradiction
  | ok program =>
      cases otherLoaded : load "+[-]" .letter with
      | error error =>
          rw [loaded, otherLoaded] at letter
          contradiction
      | ok other =>
          rw [loaded] at keyword letter
          rw [otherLoaded] at letter
          have same := Except.ok.inj letter
          have faithful := listing_faithful loaded
          exact ⟨program, other, rfl, rfl, Except.ok.inj keyword, same, faithful.1,
            faithful.2 _ _ other otherLoaded same⟩

end Faithful

end ForkTape.Program
