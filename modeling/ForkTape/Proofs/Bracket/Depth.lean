import ForkTape.Proofs.Bracket.Pairing
import Mathlib.Data.List.Nodup

/-!
# Depth within loops

How deep an instruction stands can be said of the pairs of brackets, as the number of those around
it (`Pairing.enclosing`), or of what stands before it, as the level that has been reached. The two
agree at every instruction except a `]`, which still stands on the level of what it closes
(`Pairing.level_take`). Both ends of a loop have the same pairs around them.
-/

namespace ForkTape

open ForkTape.Bracket

namespace Bracket

/-- What is less than the next number is less than this one or equal to it. -/
theorem countP_lt_succ (places : List Nat) (count : Nat) :
    places.countP (· < count + 1) = places.countP (· < count) + places.count count := by
  induction places with
  | nil => rfl
  | cons place places ih =>
      simp only [List.countP_cons, List.count_cons, ih, decide_eq_true_eq, beq_iff_eq]
      split_ifs <;> omega

/-- An instruction occurs before `count` as often as it has places before `count`. -/
theorem count_take {sequence : List Instruction} {target : Instruction} (places : List Nat)
    (distinct : places.Nodup)
    (mem_places : ∀ place, place ∈ places ↔ sequence[place]? = some target) (count : Nat) :
    (sequence.take count).count target = places.countP (· < count) := by
  induction count with
  | zero => simp
  | succ count ih =>
      have here : sequence[count]?.toList.count target = places.count count := by
        rw [distinct.count, List.count_eq_length_filter]
        simp only [mem_places]
        cases sequence[count]? with
        | none => simp
        | some instruction => simp [List.filter_cons, apply_ite List.length]
      rw [List.take_add_one, List.count_append, ih, here, countP_lt_succ]

end Bracket

namespace Pairing

/-- The number of pairs around `index`. -/
def enclosing (pairing : Pairing) (index : Nat) : Nat :=
  pairing.pairs.countP fun pair => pair.1 < index && index < pair.2

/-- The pairs that begin before `index` end before it, at it, or beyond it. -/
theorem countP_fst_lt {pairs : List (Nat × Nat)} (forwards : ∀ pair ∈ pairs, pair.1 < pair.2)
    (index : Nat) :
    pairs.countP (·.1 < index) = pairs.countP (·.2 < index) +
      pairs.countP (fun pair => pair.1 < index && index < pair.2) +
      (pairs.map Prod.snd).count index := by
  induction pairs with
  | nil => rfl
  | cons pair pairs ih =>
      rw [List.forall_mem_cons] at forwards
      have rest := ih forwards.2
      have before := forwards.1
      simp only [List.map_cons, List.countP_cons, List.count_cons, decide_eq_true_eq, beq_iff_eq,
        Bool.and_eq_true] at rest ⊢
      split_ifs <;> omega

section Scanned

variable {sequence : List Instruction} {slots : Array (Option Nat)}

/-- The pairs end at different brackets. -/
theorem nodup_map_snd_pairs (scanned : Scanned sequence slots []) :
    ((pairs ⟨slots⟩).map Prod.snd).Nodup := by
  apply List.Nodup.map_on
  · rintro ⟨opening, closing⟩ pairMem ⟨other, _⟩ otherMem rfl
    have encloses := (mem_pairs_iff_encloses scanned).mp pairMem
    rw [encloses.opening_unique ((mem_pairs_iff_encloses scanned).mp otherMem)]
  · exact List.Nodup.of_map _ ((pairs_ascending _).imp Nat.ne_of_lt)

theorem mem_map_fst_pairs (scanned : Scanned sequence slots []) (place : Nat) :
    place ∈ (pairs ⟨slots⟩).map Prod.fst ↔ sequence[place]? = some .loopOpen := by
  rw [List.mem_map]
  constructor
  · rintro ⟨⟨opening, closing⟩, pairMem, rfl⟩
    exact ((mem_pairs_iff_encloses scanned).mp pairMem).opened
  · intro opened
    rcases scanned.opened place opened with pendingMem | ⟨closing, encloses⟩
    · contradiction
    · exact ⟨(place, closing), (mem_pairs_iff_encloses scanned).mpr encloses, rfl⟩

theorem mem_map_snd_pairs (scanned : Scanned sequence slots []) (place : Nat) :
    place ∈ (pairs ⟨slots⟩).map Prod.snd ↔ sequence[place]? = some .loopClose := by
  rw [List.mem_map]
  constructor
  · rintro ⟨⟨opening, closing⟩, pairMem, rfl⟩
    exact ((mem_pairs_iff_encloses scanned).mp pairMem).closed
  · intro closed
    obtain ⟨opening, encloses⟩ := scanned.closed place closed
    exact ⟨(opening, place), (mem_pairs_iff_encloses scanned).mpr encloses, rfl⟩

theorem opens_take (scanned : Scanned sequence slots []) (count : Nat) :
    opens (sequence.take count) = (pairs ⟨slots⟩).countP (·.1 < count) := by
  rw [opens, count_take _ ((pairs_ascending _).imp Nat.ne_of_lt) (mem_map_fst_pairs scanned),
    List.countP_map]
  rfl

theorem closes_take (scanned : Scanned sequence slots []) (count : Nat) :
    closes (sequence.take count) = (pairs ⟨slots⟩).countP (·.2 < count) := by
  rw [closes, count_take _ (nodup_map_snd_pairs scanned) (mem_map_snd_pairs scanned),
    List.countP_map]
  rfl

/-- The level before an instruction is the number of pairs around it, and one more before a `]`,
since the loop that it closes is still open there. -/
theorem level_take (scanned : Scanned sequence slots []) (index : Nat) :
    level (sequence.take index) = enclosing ⟨slots⟩ index +
      if sequence[index]? = some .loopClose then 1 else 0 := by
  have forwards : ∀ pair ∈ pairs ⟨slots⟩, pair.1 < pair.2 := by
    rintro ⟨opening, closing⟩ pairMem
    exact ((mem_pairs_iff_encloses scanned).mp pairMem).before
  -- A pair that has been opened has been closed, is around `index`, or is closed there.
  have parts := countP_fst_lt forwards index
  rw [(nodup_map_snd_pairs scanned).count] at parts
  simp only [mem_map_snd_pairs scanned] at parts
  rw [level, opens_take scanned, closes_take scanned, parts, enclosing]
  split_ifs <;> omega

/-- The same pairs are around both ends of a loop. -/
theorem enclosing_ends (scanned : Scanned sequence slots []) {opening closing : Nat}
    (encloses : Encloses sequence opening closing) :
    enclosing ⟨slots⟩ opening = enclosing ⟨slots⟩ closing := by
  have before := level_take scanned opening
  have atEnd := level_take scanned closing
  have after := encloses.after
  rw [List.take_add_one, encloses.closed, Option.toList_some, level_append_loopClose] at after
  rw [if_neg (by rw [encloses.opened]; decide)] at before
  rw [if_pos encloses.closed] at atEnd
  omega

end Scanned

end Pairing

end ForkTape
