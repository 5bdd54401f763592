import ForkTape.Proofs.Bracket.Level

/-!
# The scan for loops

What a scan knows of the instructions it has read is `Scanned`: the slots filled so far are those of
the loops closed so far, and the pending loops are those whose level the sequence has not come back
to (`Unclosed`). Every instruction keeps this, whether it opens a loop, closes one or does neither,
and so it holds of whatever the scan ends with (`ScanEnds`).
-/

namespace ForkTape

namespace Bracket

/-- The loops that a sequence opens and does not close, innermost first. -/
inductive Unclosed (sequence : List Instruction) : List Nat → Prop
  | nil : Unclosed sequence []
  | cons {opening : Nat} {pending : List Nat} (outer : Unclosed sequence pending)
      (later : ∀ other ∈ pending, other < opening)
      (opened : sequence[opening]? = some .loopOpen)
      (depth : level (sequence.take opening) = pending.length)
      (inside : ∀ count, opening < count →
        level (sequence.take opening) < level (sequence.take count)) :
      Unclosed sequence (opening :: pending)

namespace Unclosed

variable {sequence : List Instruction} {pending : List Nat} {opening : Nat}

theorem of_mem (unclosed : Unclosed sequence pending) (openingMem : opening ∈ pending) :
    sequence[opening]? = some .loopOpen ∧
      ∀ count, opening < count → level (sequence.take opening) < level (sequence.take count) := by
  induction unclosed with
  | nil => contradiction
  | cons outer later opened depth inside ih =>
      rcases List.mem_cons.mp openingMem with rfl | openingMem
      · exact ⟨opened, inside⟩
      · exact ih openingMem

/-- A loop that has not been closed so far is not closed anywhere so far. -/
theorem not_encloses (unclosed : Unclosed sequence pending) (openingMem : opening ∈ pending)
    (closing : Nat) : ¬ Encloses sequence opening closing := by
  intro encloses
  have inside := (unclosed.of_mem openingMem).2 (closing + 1)
    (Nat.lt_succ_of_lt encloses.before)
  exact absurd encloses.after (Int.ne_of_gt inside)

/-- No slice from a loop that is never closed balances. -/
theorem not_closedAt (unclosed : Unclosed sequence pending) (openingMem : opening ∈ pending)
    (closing : Nat) : ¬ ClosedAt sequence opening closing := by
  rintro ⟨⟨later, _, even⟩, _⟩
  rw [← level_eq_zero_iff, level_slice (Nat.le_succ_of_le (Nat.le_of_lt later))] at even
  have inside := (unclosed.of_mem openingMem).2 (closing + 1) (Nat.lt_succ_of_lt later)
  omega

/-- Loops stay open as long as the level does not fall below their number. -/
theorem append (unclosed : Unclosed sequence pending) {instruction : Instruction}
    (above : pending.length ≤ level (sequence ++ [instruction])) :
    Unclosed (sequence ++ [instruction]) pending := by
  induction unclosed with
  | nil => exact .nil
  | @cons opening pending outer later opened depth inside ih =>
      rw [List.length_cons] at above
      have opening_lt : opening < sequence.length := (List.getElem?_eq_some_iff.mp opened).1
      have same : (sequence ++ [instruction]).take opening = sequence.take opening :=
        List.take_append_of_le_length (Nat.le_of_lt opening_lt)
      refine .cons (ih (by omega)) later ?_ (same ▸ depth) ?_
      · rw [List.getElem?_append_left opening_lt]
        exact opened
      · intro count beyond
        rw [same]
        by_cases within : count ≤ sequence.length
        · rw [List.take_append_of_le_length within]
          exact inside count beyond
        · have all : (sequence ++ [instruction]).take count = sequence ++ [instruction] := by
            apply List.take_of_length_le
            rw [List.length_append, List.length_singleton]
            omega
          rw [all]
          omega

/-- The first of the loops is the outermost. -/
theorem getLast?_le {first : Nat} (unclosed : Unclosed sequence pending)
    (last : pending.getLast? = some first) (openingMem : opening ∈ pending) :
    first ≤ opening := by
  induction unclosed with
  | nil => contradiction
  | @cons inner pending outer later opened depth inside ih =>
      cases pending with
      | nil =>
          obtain rfl := Option.some.inj last
          exact Nat.le_of_eq (List.mem_singleton.mp openingMem).symm
      | cons next pending =>
          rw [List.getLast?_cons_cons] at last
          rcases List.mem_cons.mp openingMem with rfl | openingMem
          · exact Nat.le_of_lt (later first (List.mem_of_getLast? last))
          · exact ih last openingMem

end Unclosed

/-- One more instruction closes a loop only when it is a `]`. -/
theorem encloses_append_iff {sequence : List Instruction} {instruction : Instruction}
    (plain : instruction ≠ .loopClose) {opening closing : Nat} :
    Encloses (sequence ++ [instruction]) opening closing ↔ Encloses sequence opening closing := by
  constructor
  · intro encloses
    apply encloses.of_append
    have within := encloses.closing_lt
    rw [List.length_append, List.length_singleton] at within
    apply Nat.lt_of_le_of_ne (Nat.le_of_lt_succ within)
    rintro rfl
    have closed := encloses.closed
    rw [List.getElem?_concat_length] at closed
    exact plain (Option.some.inj closed)
  · intro encloses
    exact encloses.append _

/-- What a scan knows when it has read `sequence`. -/
structure Scanned (sequence : List Instruction) (slots : Array (Option Nat))
    (pending : List Nat) : Prop where
  size : slots.size = sequence.length
  /-- The slots are those of the loops that have been closed. -/
  partner : ∀ index other, Pairing.partner? ⟨slots⟩ index = some other ↔
    Encloses sequence index other ∨ Encloses sequence other index
  unclosed : Unclosed sequence pending
  depth : level sequence = pending.length
  prefixes : ∀ count, 0 ≤ level (sequence.take count)
  opened : ∀ index, sequence[index]? = some .loopOpen →
    index ∈ pending ∨ ∃ closing, Encloses sequence index closing
  closed : ∀ index, sequence[index]? = some .loopClose → ∃ opening, Encloses sequence opening index

theorem partner?_push (slots : Array (Option Nat)) (slot : Option Nat) (index : Nat) :
    Pairing.partner? ⟨slots.push slot⟩ index =
      if index = slots.size then slot else Pairing.partner? ⟨slots⟩ index := by
  simp only [Pairing.partner?, Array.getElem?_push]
  split <;> rfl

theorem partner?_setIfInBounds {slots : Array (Option Nat)} {filled : Nat}
    (within : filled < slots.size) (slot : Option Nat) (index : Nat) :
    Pairing.partner? ⟨slots.setIfInBounds filled slot⟩ index =
      if index = filled then slot else Pairing.partner? ⟨slots⟩ index := by
  simp only [Pairing.partner?, Array.getElem?_setIfInBounds]
  by_cases same : filled = index
  · subst same
    simp [within]
  · simp [same, Ne.symm same]

namespace Scanned

variable {sequence : List Instruction} {slots : Array (Option Nat)} {pending : List Nat}

theorem start : Scanned [] #[] [] where
  size := rfl
  partner index other := by
    simp only [Pairing.partner?, List.getElem?_toArray, List.getElem?_nil, Option.join_none,
      reduceCtorEq, false_iff, not_or]
    exact ⟨fun encloses => absurd encloses.closing_lt (Nat.not_lt_zero _),
      fun encloses => absurd encloses.closing_lt (Nat.not_lt_zero _)⟩
  unclosed := .nil
  depth := rfl
  prefixes count := by simp [level, opens, closes]
  opened index found := by simp at found
  closed index found := by simp at found

/-- No prefix falls below level zero when the last one does not. -/
theorem prefixes_append (scanned : Scanned sequence slots pending) {instruction : Instruction}
    (last : 0 ≤ level (sequence ++ [instruction])) (count : Nat) :
    0 ≤ level ((sequence ++ [instruction]).take count) := by
  rcases Nat.lt_or_ge sequence.length count with beyond | within
  · rw [List.take_of_length_le (by simpa using Nat.succ_le_of_lt beyond)]
    exact last
  · rw [List.take_append_of_le_length within]
    exact scanned.prefixes count

/-- Nothing belongs to an instruction that has not been read. -/
theorem not_encloses_length {opening : Nat} :
    ¬ Encloses sequence sequence.length opening ∧ ¬ Encloses sequence opening sequence.length :=
  ⟨fun encloses => absurd encloses.opening_lt (Nat.lt_irrefl _),
    fun encloses => absurd encloses.closing_lt (Nat.lt_irrefl _)⟩

/-- An instruction that closes no loop leaves its slot empty. -/
theorem partner_append (scanned : Scanned sequence slots pending) {instruction : Instruction}
    (plain : instruction ≠ .loopClose) (index other : Nat) :
    Pairing.partner? ⟨slots.push none⟩ index = some other ↔
      Encloses (sequence ++ [instruction]) index other ∨
        Encloses (sequence ++ [instruction]) other index := by
  rw [encloses_append_iff plain, encloses_append_iff plain, partner?_push, scanned.size]
  split
  · rename_i last
    subst last
    simp [not_encloses_length]
  · exact scanned.partner index other

/-- What a sequence holds with one more instruction. -/
theorem getElem?_append_eq_some_iff {instruction found : Instruction} {index : Nat} :
    (sequence ++ [instruction])[index]? = some found ↔
      sequence[index]? = some found ∨ (index = sequence.length ∧ instruction = found) := by
  rcases Nat.lt_trichotomy index sequence.length with within | rfl | beyond
  · rw [List.getElem?_append_left within]
    simp [Nat.ne_of_lt within]
  · simp
  · rw [List.getElem?_eq_none (by simpa using Nat.succ_le_of_lt beyond),
      List.getElem?_eq_none (Nat.le_of_lt beyond)]
    simp [Nat.ne_of_gt beyond]

/-- Another instruction leaves every `]` read so far with its loop. -/
theorem closed_append (scanned : Scanned sequence slots pending) {instruction : Instruction}
    (plain : instruction ≠ .loopClose) (index : Nat)
    (found : (sequence ++ [instruction])[index]? = some .loopClose) :
    ∃ opening, Encloses (sequence ++ [instruction]) opening index := by
  rcases getElem?_append_eq_some_iff.mp found with found | ⟨_, isClose⟩
  · obtain ⟨opening, encloses⟩ := scanned.closed index found
    exact ⟨opening, encloses.append _⟩
  · exact absurd isClose plain

/-- A loop is opened. -/
theorem loopOpen (scanned : Scanned sequence slots pending) :
    Scanned (sequence ++ [.loopOpen]) (slots.push none) (slots.size :: pending) := by
  have raised : level (sequence ++ [.loopOpen]) = pending.length + 1 := by
    rw [level_append_loopOpen, scanned.depth]
  have own : (sequence ++ [Instruction.loopOpen]).take slots.size = sequence := by
    rw [scanned.size, List.take_left]
  constructor
  · simp [scanned.size]
  · exact scanned.partner_append (by simp)
  · refine .cons (scanned.unclosed.append (by omega)) ?_ ?_ ?_ ?_
    · intro other otherMem
      rw [scanned.size]
      exact (List.getElem?_eq_some_iff.mp (scanned.unclosed.of_mem otherMem).1).1
    · rw [scanned.size, List.getElem?_concat_length]
    · rw [own, scanned.depth]
    · intro count beyond
      rw [own, List.take_of_length_le (by simpa [← scanned.size] using Nat.succ_le_of_lt beyond),
        raised, scanned.depth]
      omega
  · rw [raised, List.length_cons, Int.natCast_succ]
  · exact scanned.prefixes_append (by omega)
  · intro index found
    rcases getElem?_append_eq_some_iff.mp found with found | ⟨rfl, _⟩
    · rcases scanned.opened index found with indexMem | ⟨closing, encloses⟩
      · exact .inl (List.mem_cons_of_mem _ indexMem)
      · exact .inr ⟨closing, encloses.append _⟩
    · exact .inl (scanned.size ▸ List.mem_cons_self)
  · exact scanned.closed_append (by simp)

/-- An instruction is read that is no bracket. -/
theorem plain (scanned : Scanned sequence slots pending) {instruction : Instruction}
    (plain : instruction.isBracket = false) :
    Scanned (sequence ++ [instruction]) (slots.push none) pending := by
  have notOpen : instruction ≠ .loopOpen := by
    rintro rfl
    contradiction
  have notClose : instruction ≠ .loopClose := by
    rintro rfl
    contradiction
  have kept : level (sequence ++ [instruction]) = pending.length := by
    rw [level_append_of_not_isBracket plain, scanned.depth]
  constructor
  · simp [scanned.size]
  · exact scanned.partner_append notClose
  · exact scanned.unclosed.append (Int.le_of_eq kept.symm)
  · exact kept
  · exact scanned.prefixes_append (by omega)
  · intro index found
    rcases getElem?_append_eq_some_iff.mp found with found | ⟨_, isOpen⟩
    · apply (scanned.opened index found).imp_right
      rintro ⟨closing, encloses⟩
      exact ⟨closing, encloses.append _⟩
    · exact absurd isOpen notOpen
  · exact scanned.closed_append notClose

/-- A `]` closes the innermost loop that is still open. -/
theorem encloses_loopClose {opening : Nat}
    (scanned : Scanned sequence slots (opening :: pending)) :
    Encloses (sequence ++ [.loopClose]) opening sequence.length := by
  obtain ⟨opened, inside⟩ := scanned.unclosed.of_mem List.mem_cons_self
  have opening_lt : opening < sequence.length := (List.getElem?_eq_some_iff.mp opened).1
  have depth : level (sequence.take opening) = pending.length := by
    cases scanned.unclosed with
    | cons outer later opened depth inside => exact depth
  have same : (sequence ++ [Instruction.loopClose]).take opening = sequence.take opening :=
    List.take_append_of_le_length (Nat.le_of_lt opening_lt)
  constructor
  · rw [List.getElem?_append_left opening_lt]
    exact opened
  · exact List.getElem?_concat_length
  · exact opening_lt
  · intro count beyond within
    rw [same, List.take_append_of_le_length within]
    exact inside count beyond
  · rw [same, List.take_of_length_le (by simp), level_append_loopClose, scanned.depth, depth,
      List.length_cons, Int.natCast_succ, Int.add_sub_cancel]

/-- A `]` closes no other loop. -/
theorem encloses_loopClose_iff {opening : Nat}
    (scanned : Scanned sequence slots (opening :: pending)) {first last : Nat} :
    Encloses (sequence ++ [.loopClose]) first last ↔
      Encloses sequence first last ∨ (first = opening ∧ last = sequence.length) := by
  constructor
  · intro encloses
    have within := encloses.closing_lt
    rw [List.length_append, List.length_singleton] at within
    rcases Nat.lt_or_eq_of_le (Nat.le_of_lt_succ within) with earlier | rfl
    · exact .inl (encloses.of_append earlier)
    · exact .inr ⟨encloses.opening_unique scanned.encloses_loopClose, rfl⟩
  · rintro (encloses | ⟨rfl, rfl⟩)
    · exact encloses.append _
    · exact scanned.encloses_loopClose

/-- A loop is closed. -/
theorem loopClose {opening : Nat} (scanned : Scanned sequence slots (opening :: pending)) :
    Scanned (sequence ++ [.loopClose])
      ((slots.setIfInBounds opening (some slots.size)).push (some opening)) pending := by
  have opened := (scanned.unclosed.of_mem List.mem_cons_self).1
  have opening_lt : opening < sequence.length := (List.getElem?_eq_some_iff.mp opened).1
  have lowered : level (sequence ++ [.loopClose]) = pending.length := by
    rw [level_append_loopClose, scanned.depth, List.length_cons, Int.natCast_succ,
      Int.add_sub_cancel]
  constructor
  · simp [scanned.size]
  · intro index other
    rw [partner?_push, Array.size_setIfInBounds,
      partner?_setIfInBounds (scanned.size ▸ opening_lt), scanned.size,
      scanned.encloses_loopClose_iff, scanned.encloses_loopClose_iff]
    have unopened : ¬ Encloses sequence opening other :=
      scanned.unclosed.not_encloses List.mem_cons_self other
    have notClosed : ¬ Encloses sequence other opening := by
      intro encloses
      have both := encloses.closed.symm.trans opened
      contradiction
    by_cases last : index = sequence.length
    · subst last
      simp [not_encloses_length, Nat.ne_of_gt opening_lt, eq_comm]
    · rw [if_neg last]
      by_cases atOpening : index = opening
      · subst atOpening
        simp [unopened, notClosed, Nat.ne_of_lt opening_lt, eq_comm]
      · rw [if_neg atOpening, scanned.partner]
        simp [last, atOpening]
  · cases scanned.unclosed with
    | cons outer later opened depth inside =>
        exact outer.append (Int.le_of_eq lowered.symm)
  · exact lowered
  · exact scanned.prefixes_append (by omega)
  · intro index found
    rcases getElem?_append_eq_some_iff.mp found with found | ⟨_, absurdity⟩
    · rcases scanned.opened index found with indexMem | ⟨closing, encloses⟩
      · rcases List.mem_cons.mp indexMem with rfl | indexMem
        · exact .inr ⟨_, scanned.encloses_loopClose⟩
        · exact .inl indexMem
      · exact .inr ⟨closing, encloses.append _⟩
    · contradiction
  · intro index found
    rcases getElem?_append_eq_some_iff.mp found with found | ⟨rfl, _⟩
    · obtain ⟨opening, encloses⟩ := scanned.closed index found
      exact ⟨opening, encloses.append _⟩
    · exact ⟨opening, scanned.encloses_loopClose⟩

end Scanned

/-- How a scan of `sequence` can end. -/
inductive ScanEnds (sequence : List Instruction) (offsets : Array Nat) :
    Except BracketError Pairing → Prop
  /-- All loops have been closed. -/
  | paired {slots : Array (Option Nat)} (scanned : Scanned sequence slots []) :
      ScanEnds sequence offsets (.ok ⟨slots⟩)
  /-- The `]` after the instructions `read` has no loop to close. -/
  | closesNothing {read rest : List Instruction} {slots : Array (Option Nat)}
      (scanned : Scanned read slots []) (remaining : sequence = read ++ .loopClose :: rest) :
      ScanEnds sequence offsets
        (.error (.unmatchedClose read.length (Pairing.reportedOffset offsets read.length)))
  /-- Loops have been left open, and `first` is the outermost. -/
  | leftOpen {slots : Array (Option Nat)} {pending : List Nat} {first : Nat}
      (scanned : Scanned sequence slots pending) (outermost : pending.getLast? = some first) :
      ScanEnds sequence offsets
        (.error (.unmatchedOpen pending.length first (Pairing.reportedOffset offsets first)))

/-- A scan that has read some instructions ends in one of these ways. -/
theorem scanEnds (offsets : Array Nat) {read : List Instruction} {slots : Array (Option Nat)}
    {pending : List Nat} (scanned : Scanned read slots pending) (rest : List Instruction) :
    ScanEnds (read ++ rest) offsets (Pairing.scan offsets slots pending rest) := by
  induction rest generalizing read slots pending with
  | nil =>
      rw [List.append_nil, Pairing.scan]
      cases outermost : pending.getLast? with
      | none =>
          obtain rfl := List.getLast?_eq_none_iff.mp outermost
          exact .paired scanned
      | some first => exact .leftOpen scanned outermost
  | cons instruction rest ih =>
      rw [List.append_cons]
      by_cases plain : instruction.isBracket = false
      · have unread : Pairing.scan offsets slots pending (instruction :: rest) =
            Pairing.scan offsets (slots.push none) pending rest := by
          cases instruction <;> first | rfl | contradiction
        rw [unread]
        exact ih (scanned.plain plain)
      · cases instruction with
        | loopOpen => exact ih scanned.loopOpen
        | loopClose =>
            cases pending with
            | nil =>
                rw [Pairing.scan, scanned.size, ← List.append_cons]
                exact .closesNothing scanned rfl
            | cons opening pending => exact ih scanned.loopClose
        | _ => exact absurd rfl plain

end Bracket

end ForkTape
