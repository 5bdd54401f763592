import ForkTape.Program
import ForkTape.Proofs.Bracket.Pairing
import Mathlib.Data.List.Forall2

/-!
# What is blamed when brackets do not pair up

An error names a bracket in two ways: by its index among the instructions, and by its place in the
source text. The index depends on what else is an instruction, the place does not. Scanning only
the brackets among located instructions comes to the same error as scanning all of them, but for
the index (`complaint?_ofInstructions`). The bracket itself is found at both
(`blamed_of_error`).
-/

namespace ForkTape

namespace BracketError

/-- The bracket that the error points at. -/
def bracket : BracketError → Instruction
  | unmatchedClose .. => .loopClose
  | unmatchedOpen .. => .loopOpen

/-- The place in the source text that the error points at. -/
def offset : BracketError → Nat
  | unmatchedClose _ offset => offset
  | unmatchedOpen _ _ firstOffset => firstOffset

/-- The same error among other instructions, where the bracket has another index. -/
def withIndex (index : Nat) : BracketError → BracketError
  | unmatchedClose _ offset => unmatchedClose index offset
  | unmatchedOpen count _ firstOffset => unmatchedOpen count index firstOffset

end BracketError

namespace Bracket

open Pairing (scan reportedOffset)

/-- What an error says when the index is left aside, if there is an error. -/
def complaint? : Except BracketError α → Option BracketError
  | .ok _ => none
  | .error error => some (error.withIndex 0)

/-- Where there is the same complaint, there is the same error but for the index. -/
theorem exists_withIndex_of_complaint? {first : Except BracketError α}
    {second : Except BracketError β} (same : complaint? first = complaint? second)
    {error : BracketError} (failed : first = .error error) :
    ∃ index, second = .error (error.withIndex index) := by
  subst failed
  cases second with
  | ok value => contradiction
  | error other =>
      cases error <;> cases other <;> cases same
      all_goals exact ⟨_, rfl⟩

/-- The offsets of located instructions. -/
abbrev offsetsOf (found : List Located) : Array Nat := (found.map Located.offset).toArray

/-- The located instructions that are brackets. -/
def bracketsOf (found : List Located) : List Located :=
  found.filter fun located => located.instruction.isBracket

theorem bracketsOf_append (first second : List Located) :
    bracketsOf (first ++ second) = bracketsOf first ++ bracketsOf second :=
  List.filter_append ..

section Parts

variable {located : Located}

theorem bracketsOf_cons_of_isBracket (rest : List Located)
    (isBracket : located.instruction.isBracket = true) :
    bracketsOf (located :: rest) = located :: bracketsOf rest :=
  List.filter_cons_of_pos isBracket

theorem bracketsOf_cons_of_not_isBracket (rest : List Located)
    (plain : located.instruction.isBracket = false) :
    bracketsOf (located :: rest) = bracketsOf rest :=
  List.filter_cons_of_neg (Bool.not_eq_true _ ▸ plain)

theorem bracketsOf_concat_of_isBracket (read : List Located)
    (isBracket : located.instruction.isBracket = true) :
    bracketsOf (read ++ [located]) = bracketsOf read ++ [located] := by
  rw [bracketsOf_append, bracketsOf_cons_of_isBracket [] isBracket]
  rfl

theorem bracketsOf_concat_of_not_isBracket (read : List Located)
    (plain : located.instruction.isBracket = false) :
    bracketsOf (read ++ [located]) = bracketsOf read := by
  rw [bracketsOf_append, bracketsOf_cons_of_not_isBracket [] plain]
  exact List.append_nil _

/-- What is no bracket takes a slot and is passed. -/
theorem scan_cons_of_not_isBracket (offsets : Array Nat) (slots : Array (Option Nat))
    (pending : List Nat) (rest : List Instruction)
    (plain : located.instruction.isBracket = false) :
    scan offsets slots pending (located.instruction :: rest) =
      scan offsets (slots.push none) pending rest := by
  rcases located with ⟨instruction, offset⟩
  cases instruction <;> first | rfl | contradiction

end Parts

theorem reportedOffset_offsetsOf {found : List Located} {index : Nat} {located : Located}
    (isThere : found[index]? = some located) :
    reportedOffset (offsetsOf found) index = located.offset := by
  simp [reportedOffset, isThere]

/-- The same located instruction has the two indices, among all and among the brackets. -/
def SameLocated (found : List Located) (index bracketIndex : Nat) : Prop :=
  ∃ located, found[index]? = some located ∧ (bracketsOf found)[bracketIndex]? = some located

theorem SameLocated.reportedOffset_eq {found : List Located} {index bracketIndex : Nat}
    (same : SameLocated found index bracketIndex) :
    reportedOffset (offsetsOf (bracketsOf found)) bracketIndex =
      reportedOffset (offsetsOf found) index := by
  obtain ⟨located, isThere, isThereToo⟩ := same
  rw [reportedOffset_offsetsOf isThere, reportedOffset_offsetsOf isThereToo]

/-- The bracket that is read next is the next of the brackets. -/
theorem sameLocated_next (read rest : List Located) {located : Located}
    (isBracket : located.instruction.isBracket = true) :
    SameLocated (read ++ located :: rest) read.length (bracketsOf read).length := by
  refine ⟨located, by simp, ?_⟩
  rw [bracketsOf_append, bracketsOf_cons_of_isBracket rest isBracket]
  simp

/-- Of the loops that two scans have open, the outermost stand at the same place. -/
theorem sameLocated_getLast? {found : List Located} {pending bracketPending : List Nat}
    (same : List.Forall₂ (SameLocated found) pending bracketPending) :
    (pending.getLast? = none ∧ bracketPending.getLast? = none) ∨
      ∃ first bracketFirst, pending.getLast? = some first ∧
        bracketPending.getLast? = some bracketFirst ∧ SameLocated found first bracketFirst := by
  induction same with
  | nil => exact .inl ⟨rfl, rfl⟩
  | @cons opening bracketOpening pending bracketPending sameOpening sameRest ih =>
      cases sameRest with
      | nil => exact .inr ⟨opening, bracketOpening, rfl, rfl, sameOpening⟩
      | cons _ _ =>
          rw [List.getLast?_cons_cons, List.getLast?_cons_cons]
          exact ih

/-- At the end, two scans that have the same loops open come to the same complaint. -/
theorem complaint?_scan_nil {found : List Located} {pending bracketPending : List Nat}
    (slots bracketSlots : Array (Option Nat))
    (same : List.Forall₂ (SameLocated found) pending bracketPending) :
    complaint? (scan (offsetsOf found) slots pending []) =
      complaint? (scan (offsetsOf (bracketsOf found)) bracketSlots bracketPending []) := by
  rw [scan, scan]
  rcases sameLocated_getLast? same with ⟨none, bracketNone⟩ |
    ⟨first, bracketFirst, isFirst, isBracketFirst, sameFirst⟩
  · rw [none, bracketNone]
    rfl
  · rw [isFirst, isBracketFirst]
    simp only [complaint?, BracketError.withIndex, same.length_eq, sameFirst.reportedOffset_eq]

/-- A scan of the brackets only comes to the same complaint as a scan of all instructions. Both have
the same loops open as they go on. -/
theorem complaint?_scan {read rest : List Located} {slots bracketSlots : Array (Option Nat)}
    {pending bracketPending : List Nat} (size : slots.size = read.length)
    (bracketSize : bracketSlots.size = (bracketsOf read).length)
    (same : List.Forall₂ (SameLocated (read ++ rest)) pending bracketPending) :
    complaint? (scan (offsetsOf (read ++ rest)) slots pending (rest.map Located.instruction)) =
      complaint? (scan (offsetsOf (bracketsOf (read ++ rest))) bracketSlots bracketPending
        ((bracketsOf rest).map Located.instruction)) := by
  induction rest generalizing read slots bracketSlots pending bracketPending with
  | nil =>
      rw [List.append_nil] at same ⊢
      exact complaint?_scan_nil slots bracketSlots same
  | cons located rest ih =>
      by_cases plain : located.instruction.isBracket = false
      · rw [List.map_cons, scan_cons_of_not_isBracket _ _ _ _ plain,
          bracketsOf_cons_of_not_isBracket rest plain, List.append_cons]
        rw [List.append_cons] at same
        apply ih _ _ same
        · simp [size]
        · rw [bracketsOf_concat_of_not_isBracket read plain, bracketSize]
      · have isBracket : located.instruction.isBracket = true := Bool.not_eq_false _ ▸ plain
        have next := sameLocated_next read rest isBracket
        have readBrackets := bracketsOf_concat_of_isBracket read isBracket
        rw [← size, ← bracketSize] at next
        rw [bracketsOf_cons_of_isBracket rest isBracket]
        rw [List.append_cons] at same next ⊢
        rcases located with ⟨instruction, offset⟩
        cases instruction with
        | loopOpen =>
            apply ih _ _ (.cons next same)
            · simp [size]
            · simp [readBrackets, bracketSize]
        | loopClose =>
            cases same with
            | nil =>
                simp only [List.map_cons, scan, complaint?, BracketError.withIndex,
                  next.reportedOffset_eq]
            | cons _ sameRest =>
                apply ih _ _ sameRest
                · simp [size]
                · simp [readBrackets, bracketSize]
        | _ => contradiction

/-- Among located instructions only the brackets decide what the complaint is. -/
theorem complaint?_ofInstructions (found : Array Located) :
    complaint? (Pairing.ofInstructions (found.map Located.instruction)
        (found.map Located.offset)) =
      complaint? (scan (offsetsOf (bracketsOf found.toList)) #[] []
        ((bracketsOf found.toList).map Located.instruction)) := by
  have scanned := @complaint?_scan [] found.toList #[] #[] [] [] rfl rfl .nil
  have offsets : offsetsOf ([] ++ found.toList) = found.map Located.offset := by
    rw [List.nil_append, offsetsOf, ← Array.toList_map]
  rw [offsets, List.nil_append, ← Array.toList_map] at scanned
  exact scanned

/-- The bracket that is blamed stands at the index that is given for it, and is reported at its
offset. -/
theorem blamed_of_error {instructions : Array Instruction} {offsets : Array Nat}
    {error : BracketError} (failed : Pairing.ofInstructions instructions offsets = .error error) :
    instructions[error.index]? = some error.bracket ∧
      error.offset = reportedOffset offsets error.index := by
  have ends := Pairing.scanEnds_ofInstructions instructions offsets
  rw [failed] at ends
  rw [← Array.getElem?_toList]
  cases ends with
  | closesNothing scanned remaining =>
      rw [remaining]
      constructor
      · rw [BracketError.index, List.getElem?_append_right (Nat.le_refl _), Nat.sub_self]
        rfl
      · rfl
  | leftOpen scanned outermost =>
      exact ⟨(scanned.unclosed.of_mem (List.mem_of_getLast? outermost)).1, rfl⟩

end Bracket

end ForkTape
