import ForkTape.Bracket.Pairing
import Mathlib.Order.Bounds.Defs

/-!
# Levels of loops

The level of a sequence is the number of loops that it opens and does not close. Along a sequence
the level rises by one with every `[` and falls by one with every `]`, so it tells which brackets
belong together: a `[` is closed where the level first comes back to what it was before it.

`ClosedAt` says this by counting brackets in slices of the sequence and `Encloses` by levels, which
is what a scan from left to right keeps track of.
-/

namespace ForkTape.Bracket

/-- The number of loops that a sequence opens. -/
def opens (sequence : List Instruction) : Nat := sequence.count .loopOpen

/-- The number of loops that a sequence closes. -/
def closes (sequence : List Instruction) : Nat := sequence.count .loopClose

/-- No part that a sequence begins with closes more loops than it opens, and the whole sequence
closes all of them. -/
structure Balanced (sequence : List Instruction) : Prop where
  prefixes : ∀ start, start <+: sequence → closes start ≤ opens start
  total : opens sequence = closes sequence

/-- The instructions from `first` to `last`, both of them included. -/
def slice (first last : Nat) (sequence : List Instruction) : List Instruction :=
  (sequence.take (last + 1)).drop first

/-- The slice from `opening` to `closing` is the shortest that closes as many loops as it opens. -/
def ClosedAt (sequence : List Instruction) (opening closing : Nat) : Prop :=
  IsLeast {index | opening < index ∧ index < sequence.length ∧
    opens (slice opening index sequence) = closes (slice opening index sequence)} closing

/-- How many more loops a sequence opens than it closes. -/
def level (sequence : List Instruction) : Int := opens sequence - closes sequence

section Level

variable {sequence : List Instruction}

theorem level_append (first second : List Instruction) :
    level (first ++ second) = level first + level second := by
  simp only [level, opens, closes, List.count_append]
  omega

theorem level_nonneg_iff : 0 ≤ level sequence ↔ closes sequence ≤ opens sequence := by
  rw [level, Int.sub_nonneg, Int.ofNat_le]

theorem level_eq_zero_iff : level sequence = 0 ↔ opens sequence = closes sequence := by
  rw [level, Int.sub_eq_zero, Int.ofNat_inj]

theorem level_append_loopOpen (sequence : List Instruction) :
    level (sequence ++ [.loopOpen]) = level sequence + 1 :=
  level_append _ _

theorem level_append_loopClose (sequence : List Instruction) :
    level (sequence ++ [.loopClose]) = level sequence - 1 :=
  level_append _ _

/-- No other instruction changes the level. -/
theorem level_append_of_not_isBracket {instruction : Instruction}
    (plain : instruction.isBracket = false) :
    level (sequence ++ [instruction]) = level sequence := by
  have alone : level [instruction] = 0 := by cases instruction <;> first | rfl | contradiction
  rw [level_append, alone, Int.add_zero]

/-- Counting in a slice is comparing the levels at its ends. -/
theorem level_slice {first last : Nat} (le : first ≤ last + 1) :
    level (slice first last sequence) =
      level (sequence.take (last + 1)) - level (sequence.take first) := by
  have parts : sequence.take (last + 1) = sequence.take first ++ slice first last sequence := by
    have halves := List.take_append_drop first (sequence.take (last + 1))
    rw [List.take_take, Nat.min_eq_left le] at halves
    exact halves.symm
  rw [parts, level_append]
  omega

end Level

/-- The loop opened at `opening` is closed at `closing`. -/
structure Encloses (sequence : List Instruction) (opening closing : Nat) : Prop where
  opened : sequence[opening]? = some .loopOpen
  closed : sequence[closing]? = some .loopClose
  before : opening < closing
  /-- Until then the level is higher than before the loop. -/
  inside : ∀ count, opening < count → count ≤ closing →
    level (sequence.take opening) < level (sequence.take count)
  after : level (sequence.take (closing + 1)) = level (sequence.take opening)

namespace Encloses

variable {sequence : List Instruction} {opening closing : Nat}

theorem closing_lt (encloses : Encloses sequence opening closing) : closing < sequence.length :=
  (List.getElem?_eq_some_iff.mp encloses.closed).1

theorem opening_lt (encloses : Encloses sequence opening closing) : opening < sequence.length :=
  Nat.lt_trans encloses.before encloses.closing_lt

/-- A loop is closed where the slice from its opening on first balances. -/
theorem closedAt (encloses : Encloses sequence opening closing) :
    ClosedAt sequence opening closing := by
  constructor
  · refine ⟨encloses.before, encloses.closing_lt, ?_⟩
    rw [← level_eq_zero_iff, level_slice (Nat.le_succ_of_le (Nat.le_of_lt encloses.before)),
      encloses.after, Int.sub_self]
  · rintro index ⟨later, _, even⟩
    rw [← level_eq_zero_iff, level_slice (Nat.le_succ_of_le (Nat.le_of_lt later))] at even
    apply Nat.le_of_not_lt
    intro earlier
    have higher := encloses.inside (index + 1) (Nat.lt_succ_of_lt later) earlier
    omega

/-- A bracket closes one loop only. -/
theorem opening_unique {other : Nat} (encloses : Encloses sequence opening closing)
    (same : Encloses sequence other closing) : opening = other := by
  have first := encloses.inside other
  have second := same.inside opening
  have level_eq := encloses.after.symm.trans same.after
  have before := encloses.before
  have otherBefore := same.before
  omega

/-- A loop is closed by one bracket only. -/
theorem closing_unique {other : Nat} (encloses : Encloses sequence opening closing)
    (same : Encloses sequence opening other) : closing = other := by
  have first := encloses.inside (other + 1)
  have second := same.inside (closing + 1)
  have after := encloses.after
  have otherAfter := same.after
  have before := encloses.before
  have otherBefore := same.before
  omega

/-- Of two loops one is within the other, or they are apart. -/
theorem nested_or_disjoint {otherOpening otherClosing : Nat}
    (encloses : Encloses sequence opening closing)
    (other : Encloses sequence otherOpening otherClosing) (later : opening < otherOpening) :
    closing < otherOpening ∨ otherClosing < closing := by
  by_cases apart : closing < otherOpening
  · exact .inl apart
  · right
    have distinct : otherOpening ≠ closing := by
      rintro rfl
      have both := encloses.closed.symm.trans other.opened
      contradiction
    -- A loop opened within the other begins above its level, and cannot last until it is closed.
    have above := encloses.inside otherOpening later (Nat.le_of_not_lt apart)
    have after := encloses.after
    apply Nat.lt_of_not_le
    intro outlasts
    rcases Nat.lt_or_eq_of_le outlasts with longer | rfl
    · have higher := other.inside (closing + 1) (by omega) longer
      omega
    · exact absurd (encloses.opening_unique other) (Nat.ne_of_lt later)

/-- What stands before an instruction is not changed by what follows. -/
theorem append (encloses : Encloses sequence opening closing) (rest : List Instruction) :
    Encloses (sequence ++ rest) opening closing := by
  have closing_lt := encloses.closing_lt
  have same {count : Nat} (within : count ≤ sequence.length) :
      (sequence ++ rest).take count = sequence.take count :=
    List.take_append_of_le_length within
  constructor
  · rw [List.getElem?_append_left encloses.opening_lt]
    exact encloses.opened
  · rw [List.getElem?_append_left closing_lt]
    exact encloses.closed
  · exact encloses.before
  · intro count later within
    rw [same (Nat.le_of_lt encloses.opening_lt),
      same (Nat.le_trans within (Nat.le_of_lt closing_lt))]
    exact encloses.inside count later within
  · rw [same (Nat.le_of_lt encloses.opening_lt), same closing_lt]
    exact encloses.after

/-- A loop that is closed before the end is closed without what follows. -/
theorem of_append {rest : List Instruction} (encloses : Encloses (sequence ++ rest) opening closing)
    (closing_lt : closing < sequence.length) : Encloses sequence opening closing := by
  have opening_lt := Nat.lt_trans encloses.before closing_lt
  have same {count : Nat} (within : count ≤ sequence.length) :
      (sequence ++ rest).take count = sequence.take count :=
    List.take_append_of_le_length within
  constructor
  · rw [← List.getElem?_append_left opening_lt]
    exact encloses.opened
  · rw [← List.getElem?_append_left closing_lt]
    exact encloses.closed
  · exact encloses.before
  · intro count later within
    have higher := encloses.inside count later within
    rwa [same (Nat.le_of_lt opening_lt),
      same (Nat.le_trans within (Nat.le_of_lt closing_lt))] at higher
  · have after := encloses.after
    rwa [same (Nat.le_of_lt opening_lt), same closing_lt] at after

end Encloses

end ForkTape.Bracket
