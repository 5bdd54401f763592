import ForkTape.Proofs.Bracket.Scan

/-!
# Which brackets are paired

A sequence of instructions pairs up when its brackets are balanced, and every bracket is then
paired with the other one of its loop (`Pairing.Matches`). Otherwise the error points at the first
`]` that closes nothing, or else at the first `[` that is never closed (`Pairing.Unmatched`).
-/

namespace ForkTape.Pairing

open ForkTape.Bracket

/-- The pairing has for every bracket of a sequence the other one of its loop. -/
structure Matches (pairing : Pairing) (sequence : List Instruction) : Prop where
  /-- Brackets have partners, and no other instruction has. -/
  brackets : ∀ index, (pairing.partner? index).isSome = true ↔
    ∃ instruction, sequence[index]? = some instruction ∧ instruction.isBracket = true
  /-- The partner of a `[` is where the slice from it on first balances. -/
  closedAt : ∀ opening, sequence[opening]? = some .loopOpen →
    ∃ closing, pairing.partner? opening = some closing ∧ ClosedAt sequence opening closing
  symmetric : ∀ index partner, pairing.partner? index = some partner →
    pairing.partner? partner = some index
  /-- Two pairs are apart, or one is within the other. -/
  nested : ∀ first ∈ pairing.pairs, ∀ second ∈ pairing.pairs, first ≠ second →
    first.2 < second.1 ∨ second.2 < first.1 ∨
      (first.1 < second.1 ∧ second.2 < first.2) ∨ (second.1 < first.1 ∧ first.2 < second.2)
  mem_pairs : ∀ opening closing, (opening, closing) ∈ pairing.pairs ↔
    sequence[opening]? = some .loopOpen ∧ pairing.partner? opening = some closing
  /-- The pairs are listed by their openings, each of them once. -/
  ascending : (pairing.pairs.map Prod.fst).Pairwise (· < ·)

/-- Why the brackets of a sequence do not pair up. -/
inductive Unmatched (sequence : List Instruction) (offsets : Array Nat) : BracketError → Prop
  /-- The instruction at `index` is the last of the shortest part, from the beginning on, that
  closes more loops than it opens. -/
  | closesNothing {index : Nat}
      (shortest : IsLeast {last | last < sequence.length ∧
        opens (sequence.take (last + 1)) < closes (sequence.take (last + 1))} index) :
      Unmatched sequence offsets (.unmatchedClose index (offsets[index]?.getD index))
  /-- There is no such part, `count` more loops are opened than closed, and `first` is the first
  `[` from which on no slice balances. -/
  | neverClosed {count first : Nat}
      (prefixes : ∀ start, start <+: sequence → closes start ≤ opens start)
      (excess : opens sequence = closes sequence + count) (positive : 0 < count)
      (least : IsLeast {opening | sequence[opening]? = some .loopOpen ∧
        ∀ closing, ¬ ClosedAt sequence opening closing} first) :
      Unmatched sequence offsets (.unmatchedOpen count first (offsets[first]?.getD first))

section Pairs

theorem mem_pairs_iff {pairing : Pairing} {opening closing : Nat} :
    (opening, closing) ∈ pairing.pairs ↔
      pairing.partner? opening = some closing ∧ opening < closing := by
  simp only [pairs, List.mem_filterMap, Prod.exists, List.mem_zipIdx_iff_getElem?,
    Option.bind_eq_some_iff, Option.ite_none_right_eq_some, Option.some.injEq, Prod.mk.injEq,
    partner?, Option.join_eq_some_iff, Array.getElem?_toList]
  constructor
  · rintro ⟨_, index, found, partner, rfl, later, rfl, rfl⟩
    exact ⟨found, later⟩
  · rintro ⟨found, later⟩
    exact ⟨some closing, opening, found, closing, rfl, later, rfl, rfl⟩

theorem pairs_ascending (pairing : Pairing) :
    (pairing.pairs.map Prod.fst).Pairwise (· < ·) := by
  rw [List.pairwise_map, pairs, List.pairwise_filterMap]
  have indices : pairing.slots.toList.zipIdx.Pairwise fun first second => first.2 < second.2 := by
    rw [← List.pairwise_map, List.zipIdx_map_snd]
    exact List.pairwise_lt_range'
  apply indices.imp
  rintro ⟨firstSlot, first⟩ ⟨secondSlot, second⟩ lt pair firstPair other secondPair
  obtain ⟨_, _, firstEq⟩ := Option.bind_eq_some_iff.mp firstPair
  obtain ⟨_, _, secondEq⟩ := Option.bind_eq_some_iff.mp secondPair
  rw [Option.ite_none_right_eq_some, Option.some.injEq] at firstEq secondEq
  obtain ⟨_, rfl⟩ := firstEq
  obtain ⟨_, rfl⟩ := secondEq
  exact lt

end Pairs

section Ends

variable {sequence : List Instruction} {slots : Array (Option Nat)} {pending : List Nat}

/-- Nothing that a scan has read closes more loops than it opens. -/
theorem closes_le_opens_of_scanned (scanned : Scanned sequence slots pending)
    {start : List Instruction} (isStart : start <+: sequence) : closes start ≤ opens start := by
  rw [← level_nonneg_iff, List.prefix_iff_eq_take.mp isStart]
  exact scanned.prefixes _

theorem balanced_of_scanned (scanned : Scanned sequence slots []) : Balanced sequence where
  prefixes _ isStart := closes_le_opens_of_scanned scanned isStart
  total := level_eq_zero_iff.mp scanned.depth

/-- The pairs of a sequence that has been read are its loops. -/
theorem mem_pairs_iff_encloses (scanned : Scanned sequence slots []) {opening closing : Nat} :
    (opening, closing) ∈ pairs ⟨slots⟩ ↔ Encloses sequence opening closing := by
  rw [mem_pairs_iff, scanned.partner]
  constructor
  · rintro ⟨encloses | encloses, later⟩
    · exact encloses
    · exact absurd encloses.before (Nat.lt_asymm later)
  · intro encloses
    exact ⟨.inl encloses, encloses.before⟩

/-- The slots of a sequence that has been read to its end hold what they should. -/
theorem matches_of_scanned (scanned : Scanned sequence slots []) :
    Matches ⟨slots⟩ sequence where
  brackets index := by
    simp only [Option.isSome_iff_exists, scanned.partner]
    constructor
    · rintro ⟨other, encloses | encloses⟩
      · exact ⟨_, encloses.opened, rfl⟩
      · exact ⟨_, encloses.closed, rfl⟩
    · rintro ⟨instruction, found, isBracket⟩
      cases instruction with
      | loopOpen =>
          rcases scanned.opened index found with indexMem | ⟨closing, encloses⟩
          · contradiction
          · exact ⟨closing, .inl encloses⟩
      | loopClose =>
          obtain ⟨opening, encloses⟩ := scanned.closed index found
          exact ⟨opening, .inr encloses⟩
      | _ => contradiction
  closedAt opening found := by
    rcases scanned.opened opening found with openingMem | ⟨closing, encloses⟩
    · contradiction
    · exact ⟨closing, (scanned.partner _ _).mpr (.inl encloses), encloses.closedAt⟩
  symmetric index other := by
    rw [scanned.partner, scanned.partner]
    exact Or.symm
  nested := by
    rintro ⟨opening, closing⟩ firstMem ⟨otherOpening, otherClosing⟩ secondMem distinct
    have first := (mem_pairs_iff_encloses scanned).mp firstMem
    have second := (mem_pairs_iff_encloses scanned).mp secondMem
    rcases Nat.lt_trichotomy opening otherOpening with earlier | rfl | later
    · rcases first.nested_or_disjoint second earlier with apart | within
      · exact .inl apart
      · exact .inr (.inr (.inl ⟨earlier, within⟩))
    · exact absurd (congrArg _ (first.closing_unique second)) distinct
    · rcases second.nested_or_disjoint first later with apart | within
      · exact .inr (.inl apart)
      · exact .inr (.inr (.inr ⟨later, within⟩))
  mem_pairs opening closing := by
    rw [mem_pairs_iff_encloses scanned, scanned.partner]
    constructor
    · intro encloses
      exact ⟨encloses.opened, .inl encloses⟩
    · rintro ⟨opened, encloses | encloses⟩
      · exact encloses
      · have both := opened.symm.trans encloses.closed
        contradiction
  ascending := pairs_ascending _

/-- A `]` that closes nothing ends the shortest part that closes too many loops. -/
theorem unmatched_of_closesNothing {rest : List Instruction} (offsets : Array Nat)
    (scanned : Scanned sequence slots []) :
    Unmatched (sequence ++ .loopClose :: rest) offsets
      (.unmatchedClose sequence.length (offsets[sequence.length]?.getD sequence.length)) := by
  have whole : sequence ++ .loopClose :: rest = sequence ++ [.loopClose] ++ rest :=
    List.append_cons ..
  constructor
  constructor
  · refine ⟨by simp, ?_⟩
    rw [whole, List.take_left' (by simp), ← Nat.not_le, ← level_nonneg_iff,
      level_append_loopClose, scanned.depth]
    decide
  · rintro last ⟨_, tooMany⟩
    apply Nat.le_of_not_lt
    intro earlier
    rw [List.take_append_of_le_length earlier] at tooMany
    exact absurd tooMany (Nat.not_lt.mpr
      (closes_le_opens_of_scanned scanned (List.take_prefix _ _)))

/-- When loops have been left open, the outermost is the first that is never closed. -/
theorem unmatched_of_leftOpen {first : Nat} (offsets : Array Nat)
    (scanned : Scanned sequence slots pending) (outermost : pending.getLast? = some first) :
    Unmatched sequence offsets
      (.unmatchedOpen pending.length first (offsets[first]?.getD first)) := by
  have firstMem : first ∈ pending := List.mem_of_getLast? outermost
  constructor
  · intro start isStart
    exact closes_le_opens_of_scanned scanned isStart
  · have depth := scanned.depth
    simp only [level] at depth
    omega
  · exact List.length_pos_of_mem firstMem
  · constructor
    · exact ⟨(scanned.unclosed.of_mem firstMem).1, scanned.unclosed.not_closedAt firstMem⟩
    · rintro opening ⟨opened, unclosed⟩
      rcases scanned.opened opening opened with openingMem | ⟨closing, encloses⟩
      · exact scanned.unclosed.getLast?_le outermost openingMem
      · exact absurd encloses.closedAt (unclosed closing)

end Ends

/-- What does not pair up is not balanced. -/
theorem Unmatched.not_balanced {sequence : List Instruction} {offsets : Array Nat}
    {error : BracketError} (unmatched : Unmatched sequence offsets error) :
    ¬ Balanced sequence := by
  intro balanced
  cases unmatched with
  | closesNothing shortest =>
      exact absurd shortest.1.2
        (Nat.not_lt.mpr (balanced.prefixes _ (List.take_prefix _ _)))
  | neverClosed prefixes excess positive least =>
      have total := balanced.total
      omega

section Answers

variable {instructions : Array Instruction} {offsets : Array Nat}

theorem scanEnds_ofInstructions (instructions : Array Instruction) (offsets : Array Nat) :
    ScanEnds instructions.toList offsets (ofInstructions instructions offsets) :=
  scanEnds offsets .start instructions.toList

/-- A sequence that pairs up has been read to its end. -/
theorem scanned_of_paired {pairing : Pairing}
    (paired : ofInstructions instructions offsets = .ok pairing) :
    Scanned instructions.toList pairing.slots [] := by
  have ends := scanEnds_ofInstructions instructions offsets
  rw [paired] at ends
  cases ends with
  | paired scanned => exact scanned

theorem unmatched_of_error {error : BracketError}
    (failed : ofInstructions instructions offsets = .error error) :
    Unmatched instructions.toList offsets error := by
  have ends := scanEnds_ofInstructions instructions offsets
  rw [failed] at ends
  cases ends with
  | closesNothing scanned remaining =>
      rw [remaining]
      exact unmatched_of_closesNothing offsets scanned
  | leftOpen scanned outermost => exact unmatched_of_leftOpen offsets scanned outermost

end Answers

/-- The brackets of a sequence pair up exactly when they are balanced, whatever is known of its
places in a source text. Every bracket is then paired with the other one of its loop. Otherwise the
error points at the first `]` that closes nothing, or else at the first `[` that is never closed. -/
theorem matches_or_unmatched (instructions : Array Instruction) (offsets : Array Nat) :
    ((∃ pairing, ofInstructions instructions offsets = .ok pairing) ↔
      Balanced instructions.toList) ∧
    (∀ pairing, ofInstructions instructions offsets = .ok pairing →
      pairing.Matches instructions.toList) ∧
    ∀ error, ofInstructions instructions offsets = .error error →
      Unmatched instructions.toList offsets error := by
  refine ⟨⟨?_, ?_⟩, ?_, ?_⟩
  · rintro ⟨pairing, paired⟩
    exact balanced_of_scanned (scanned_of_paired paired)
  · intro balanced
    cases result : ofInstructions instructions offsets with
    | ok pairing => exact ⟨pairing, rfl⟩
    | error error => exact absurd balanced (unmatched_of_error result).not_balanced
  · intro pairing paired
    exact matches_of_scanned (scanned_of_paired paired)
  · intro error failed
    exact unmatched_of_error failed

/-- Two loops, one within the other, pair up. Without the last `]` the first `[` is never closed,
and a `]` too many closes nothing. -/
theorem nested_loops_matches :
    (∃ pairing, ofInstructions #[.loopOpen, .loopOpen, .loopClose, .loopClose] #[] = .ok pairing ∧
      pairing.Matches [.loopOpen, .loopOpen, .loopClose, .loopClose]) ∧
    Unmatched [.loopOpen, .loopOpen, .loopClose] #[5] (.unmatchedOpen 1 0 5) ∧
    Unmatched [.loopOpen, .loopClose, .loopClose] #[] (.unmatchedClose 2 2) :=
  ⟨⟨_, rfl, (matches_or_unmatched #[.loopOpen, .loopOpen, .loopClose, .loopClose] #[]).2.1 _ rfl⟩,
    (matches_or_unmatched #[.loopOpen, .loopOpen, .loopClose] #[5]).2.2 _ rfl,
    (matches_or_unmatched #[.loopOpen, .loopClose, .loopClose] #[]).2.2 _ rfl⟩

end ForkTape.Pairing
