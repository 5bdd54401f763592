import ForkTape.Program

/-!
# Blocks

A sequence of instructions whose brackets pair up is a tree: a row of actions and loops, where
every loop has such a row as its body. This module reads that tree off a sequence
(`Block.parse?`) and shows that it is the tree by which programs are paired. The reading accepts
what the bracket scan accepts (`Block.exists_parse?_of_paired`), it is inverse to writing the
tree out (`Block.parse?_eq_some_iff`), and the slots of the pairing are those of the tree
(`Block.ofInstructions_instructions`).
-/

namespace ForkTape

/-- An instruction that bounds no loop. -/
abbrev Action := { instruction : Instruction // instruction.isBracket = false }

/-- A row of actions and loops. -/
inductive Block
  /-- Nothing is left to do. -/
  | done
  /-- An action, and what follows it. -/
  | act (action : Action) (rest : Block)
  /-- A loop, and what follows it. -/
  | loop (body rest : Block)
  deriving DecidableEq, Repr

namespace Block

/-- The instructions of a block, its loops written with brackets. -/
def instructions : Block → List Instruction
  | done => []
  | act action rest => action.val :: rest.instructions
  | loop body rest =>
      .loopOpen :: (body.instructions ++ .loopClose :: rest.instructions)

/-- The number of instructions of a block. -/
def size : Block → Nat
  | done => 0
  | act _ rest => rest.size + 1
  | loop body rest => body.size + rest.size + 2

@[simp]
theorem length_instructions (block : Block) : block.instructions.length = block.size := by
  induction block with
  | done => rfl
  | act action rest ih => simp [instructions, size, ih]
  | loop body rest bodyIh restIh =>
      simp only [instructions, size, List.length_cons, List.length_append, bodyIh, restIh]
      omega

/-- What follows the instructions of a loop follows those of what comes after it. -/
theorem instructions_loop_append (body following : Block) (rest : List Instruction) :
    (loop body following).instructions ++ rest =
      .loopOpen :: (body.instructions ++ .loopClose :: (following.instructions ++ rest)) := by
  simp [instructions]

/-- One block after another. -/
def append : Block → Block → Block
  | done, next => next
  | act action rest, next => act action (rest.append next)
  | loop body rest, next => loop body (rest.append next)

@[simp]
theorem append_done (block : Block) : block.append done = block := by
  induction block with
  | done => rfl
  | act action rest ih => rw [append, ih]
  | loop body rest _ ih => rw [append, ih]

/-! ## Reading a block -/

/-- The blocks into which a final part of a sequence falls: the innermost one that it begins
in, and after each `]` that it does not open the block that goes on there. -/
def segments? : List Instruction → Option (Block × List Block)
  | [] => some (done, [])
  | instruction :: rest =>
      match segments? rest with
      | none => none
      | some (block, enclosing) =>
          if plain : instruction.isBracket = false then
            some (act ⟨instruction, plain⟩ block, enclosing)
          else if instruction = .loopClose then some (done, block :: enclosing)
          else
            match enclosing with
            | [] => none
            | next :: enclosing => some (loop block next, enclosing)

/-- The block that a sequence of instructions writes out. -/
def parse? (sequence : List Instruction) : Option Block :=
  match segments? sequence with
  | some (block, []) => some block
  | _ => none

theorem segments?_act (action : Action) (rest : List Instruction) :
    segments? (action.val :: rest) =
      (segments? rest).map fun (block, enclosing) => (act action block, enclosing) := by
  rw [segments?]
  cases segments? rest with
  | none => rfl
  | some segments => simp [action.property]

theorem segments?_loopClose (rest : List Instruction) :
    segments? (.loopClose :: rest) =
      (segments? rest).map fun (block, enclosing) => (done, block :: enclosing) := by
  rw [segments?]
  cases segments? rest with
  | none => rfl
  | some segments => simp [Instruction.isBracket]

theorem segments?_loopOpen {rest : List Instruction} {body next : Block}
    {enclosing : List Block} (segmented : segments? rest = some (body, next :: enclosing)) :
    segments? (.loopOpen :: rest) = some (loop body next, enclosing) := by
  rw [segments?, segmented]
  simp [Instruction.isBracket]

/-- The instructions of a block are read as that block, whatever follows them. -/
theorem segments?_append (block : Block) (rest : List Instruction) :
    segments? (block.instructions ++ rest) =
      (segments? rest).map fun (next, enclosing) => (block.append next, enclosing) := by
  induction block generalizing rest with
  | done => simp [instructions, append]
  | act action following ih =>
      rw [instructions, List.cons_append, segments?_act, ih, Option.map_map]
      rfl
  | loop body following bodyIh followingIh =>
      have inner : segments? (body.instructions ++
            .loopClose :: (following.instructions ++ rest)) =
          (segments? rest).map fun (next, enclosing) =>
            (body, following.append next :: enclosing) := by
        rw [bodyIh, segments?_loopClose, followingIh, Option.map_map, Option.map_map]
        simp [Function.comp_def]
      rw [instructions_loop_append]
      cases segmented : segments? rest with
      | none =>
          rw [segmented] at inner
          rw [segments?, inner]
          rfl
      | some segments =>
          rw [segmented] at inner
          exact segments?_loopOpen inner

/-- What has been read, written out again, is the sequence. -/
theorem instructions_of_segments? {sequence : List Instruction} {block : Block}
    {enclosing : List Block} (segmented : segments? sequence = some (block, enclosing)) :
    sequence =
      block.instructions ++ enclosing.flatMap fun next => .loopClose :: next.instructions := by
  induction sequence generalizing block enclosing with
  | nil =>
      cases segmented
      rfl
  | cons instruction rest ih =>
      rw [segments?] at segmented
      cases restSegmented : segments? rest with
      | none => simp [restSegmented] at segmented
      | some segments =>
          rcases segments with ⟨first, others⟩
          have restEq := ih restSegmented
          rw [restSegmented] at segmented
          by_cases plain : instruction.isBracket = false
          · simp only [plain, dite_true, Option.some.injEq, Prod.mk.injEq] at segmented
            rcases segmented with ⟨rfl, rfl⟩
            simp [instructions, ← restEq]
          · by_cases closes : instruction = .loopClose
            · subst closes
              simp only [plain, if_true] at segmented
              cases segmented
              simp [instructions, ← restEq]
            · have opens : instruction = .loopOpen := by
                cases instruction <;> simp_all [Instruction.isBracket]
              subst opens
              cases others with
              | nil => simp [plain] at segmented
              | cons next others =>
                  simp only [plain, dite_false, reduceCtorEq, if_false, Option.some.injEq,
                    Prod.mk.injEq] at segmented
                  rcases segmented with ⟨rfl, rfl⟩
                  simp [instructions, restEq]

/-- Reading a sequence as a block and writing a block out are inverse to each other. -/
theorem parse?_eq_some_iff {sequence : List Instruction} {block : Block} :
    parse? sequence = some block ↔ block.instructions = sequence := by
  constructor
  · intro parsed
    rw [parse?] at parsed
    split at parsed
    · rename_i segmented
      cases parsed
      simpa using (instructions_of_segments? segmented).symm
    · contradiction
  · rintro rfl
    have segmented := segments?_append block []
    rw [List.append_nil] at segmented
    simp [parse?, segmented, segments?]

/-! ## The pairing of a block -/

/-- The slots of a block whose first instruction has the index `start`. -/
def slots (start : Nat) : Block → List (Option Nat)
  | done => []
  | act _ rest => none :: rest.slots (start + 1)
  | loop body rest =>
      let close := start + 1 + body.size
      some close :: (body.slots (start + 1) ++ some start :: rest.slots (close + 1))

@[simp]
theorem length_slots (block : Block) (start : Nat) :
    (block.slots start).length = block.size := by
  induction block generalizing start with
  | done => rfl
  | act action rest ih => simp [slots, size, ih]
  | loop body rest bodyIh restIh =>
      simp only [slots, size, List.length_cons, List.length_append, bodyIh, restIh]
      omega

theorem scan_act (offsets : Array Nat) (filled : Array (Option Nat)) (pending : List Nat)
    (action : Action) (rest : List Instruction) :
    Pairing.scan offsets filled pending (action.val :: rest) =
      Pairing.scan offsets (filled.push none) pending rest := by
  rcases action with ⟨instruction, plain⟩
  cases instruction <;> first | rfl | simp [Instruction.isBracket] at plain

/-- Scanning a block fills its slots and leaves the loops open that were open before. -/
theorem scan_append (offsets : Array Nat) (block : Block) (filled : Array (Option Nat))
    (pending : List Nat) (rest : List Instruction) :
    Pairing.scan offsets filled pending (block.instructions ++ rest) =
      Pairing.scan offsets (filled ++ (block.slots filled.size).toArray) pending rest := by
  induction block generalizing filled pending rest with
  | done => simp [instructions, slots]
  | act action following ih =>
      rw [instructions, List.cons_append, scan_act, ih]
      simp [slots]
  | loop body following bodyIh followingIh =>
      -- The body is scanned with its loop pending, whose slot the `]` then fills.
      rw [instructions_loop_append, Pairing.scan, bodyIh, Pairing.scan, followingIh]
      congr 1
      rw [← Array.toList_inj]
      simp [slots, Nat.add_assoc, Nat.add_comm, Nat.add_left_comm]

/-- The pairing of a block's instructions consists of the block's slots. -/
theorem ofInstructions_instructions (block : Block) (offsets : Array Nat) :
    Pairing.ofInstructions block.instructions.toArray offsets =
      .ok ⟨(block.slots 0).toArray⟩ := by
  have scanned := scan_append offsets block #[] [] []
  simp only [List.append_nil, Array.size_empty] at scanned
  rw [Pairing.ofInstructions, scanned]
  simp [Pairing.scan]

/-- A scan that succeeds has read a sequence that falls into one block more than there were
loops open. -/
theorem exists_segments?_of_scan {offsets : Array Nat} {filled : Array (Option Nat)}
    {pending : List Nat} {sequence : List Instruction} {pairing : Pairing}
    (scanned : Pairing.scan offsets filled pending sequence = .ok pairing) :
    ∃ block enclosing, segments? sequence = some (block, enclosing) ∧
      enclosing.length = pending.length := by
  induction sequence generalizing filled pending with
  | nil =>
      cases pending with
      | nil => exact ⟨done, [], rfl, rfl⟩
      | cons opening pending =>
          rw [Pairing.scan, List.getLast?_eq_some_getLast (List.cons_ne_nil _ _)] at scanned
          contradiction
  | cons instruction rest ih =>
      by_cases plain : instruction.isBracket = false
      · rw [scan_act offsets filled pending ⟨instruction, plain⟩ rest] at scanned
        obtain ⟨block, enclosing, segmented, length_eq⟩ := ih scanned
        refine ⟨act ⟨instruction, plain⟩ block, enclosing, ?_, length_eq⟩
        simpa [segmented] using segments?_act ⟨instruction, plain⟩ rest
      · cases instruction with
        | loopOpen =>
            rw [Pairing.scan] at scanned
            obtain ⟨block, enclosing, segmented, length_eq⟩ := ih scanned
            cases enclosing with
            | nil => simp at length_eq
            | cons next enclosing =>
                exact ⟨loop block next, enclosing, segments?_loopOpen segmented,
                  by simpa using length_eq⟩
        | loopClose =>
            cases pending with
            | nil => simp [Pairing.scan] at scanned
            | cons opening pending =>
                rw [Pairing.scan] at scanned
                obtain ⟨block, enclosing, segmented, length_eq⟩ := ih scanned
                refine ⟨done, block :: enclosing, ?_, by simpa using length_eq⟩
                rw [segments?_loopClose, segmented]
                rfl
        | _ => simp [Instruction.isBracket] at plain

/-- The instructions of a sequence that pairs up write out a block. -/
theorem exists_parse?_of_paired {sequence : Array Instruction} {offsets : Array Nat}
    {pairing : Pairing} (paired : Pairing.ofInstructions sequence offsets = .ok pairing) :
    ∃ block, parse? sequence.toList = some block := by
  obtain ⟨block, enclosing, segmented, length_eq⟩ := exists_segments?_of_scan paired
  obtain rfl : enclosing = [] := List.eq_nil_of_length_eq_zero length_eq
  exact ⟨block, by rw [parse?, segmented]⟩

end Block

end ForkTape
