import ForkTape.Proofs.Tape.Row
import Mathlib.Data.List.DropRight
import Mathlib.Data.Nat.Find

/-!
# What is kept of a tape

Of a tape only the cells up to the scanned one are reported, or up to the last that is not zero if
that is further right (`Tape.truncated`). Nothing is lost by that. A prefix of the cells tells all
of them if it holds the scanned one and has nothing but zeros behind it (`Tape.Covers`), and this
one begins every such prefix (`Covers.truncated_isPrefix`).

By index (`Tape.Row`) the end of the prefix is looked for, and it has to be checked that the row is
long enough. For the row of a tape it is, and what is kept of the row is what is kept of the tape
(`truncated?_row`).

Only cells that have been scanned can have been written to, so no more are kept than have been
scanned (`length_truncated_le`).
-/

namespace ForkTape.Tape

/-! ## Zeros at the end -/

theorem dropTrailingZeros_isPrefix (cells : List UInt8) : dropTrailingZeros cells <+: cells :=
  List.rdropWhile_prefix _ _

/-- Nothing but zeros is dropped. -/
theorem exists_dropTrailingZeros_append (cells : List UInt8) :
    ∃ count, dropTrailingZeros cells ++ List.replicate count 0 = cells := by
  have zeros : ∀ cell ∈ cells.rtakeWhile (· == 0), cell = 0 := fun _ cellMem => by
    simpa using List.mem_rtakeWhile_imp cellMem
  refine ⟨(cells.rtakeWhile (· == 0)).length, ?_⟩
  rw [← List.eq_replicate_of_mem zeros]
  exact List.rdropWhile_append_rtakeWhile

/-- Zeros that are appended are dropped again. -/
theorem dropTrailingZeros_append (cells : List UInt8) {zeros : List UInt8}
    (blank : ∀ cell ∈ zeros, cell = 0) :
    dropTrailingZeros (cells ++ zeros) = dropTrailingZeros cells := by
  have dropped : ∀ cell ∈ zeros.reverse, (cell == 0) = true := fun cell cellMem =>
    beq_iff_eq.mpr (blank cell (List.mem_reverse.mp cellMem))
  rw [dropTrailingZeros, List.reverse_append, List.dropWhile_append_of_pos dropped,
    dropTrailingZeros]

/-! ## The shortest prefix -/

/-- The prefix `part` of the cells holds the scanned one, and no cell behind it differs from
zero. -/
structure Covers (tape : Tape) (part : List UInt8) : Prop where
  isPrefix : part <+: tape.cells
  scanned : tape.position < part.length
  blank : ∀ cell ∈ tape.cells.drop part.length, cell = 0

/-- Nothing of the tape is lost in `kept`, and nothing is kept without need. -/
structure Lossless (tape : Tape) (kept : List UInt8) : Prop where
  covers : tape.Covers kept
  shortest : ∀ part, tape.Covers part → kept.length ≤ part.length
  nonempty : kept ≠ []
  padded : kept ++ List.replicate (tape.cells.length - kept.length) 0 = tape.cells

theorem position_lt_length_truncated (tape : Tape) : tape.position < tape.truncated.length := by
  simp only [position, truncated, List.length_append, Array.length_toList, List.length_cons]
  omega

/-- Zeros are all that is missing. -/
theorem exists_truncated_append (tape : Tape) :
    ∃ count, tape.truncated ++ List.replicate count 0 = tape.cells := by
  obtain ⟨count, whole⟩ := exists_dropTrailingZeros_append tape.after
  refine ⟨count + tape.blank, ?_⟩
  calc tape.truncated ++ List.replicate (count + tape.blank) 0
      = tape.before.toList ++ tape.scanned ::
          (dropTrailingZeros tape.after ++ List.replicate count 0) ++
            List.replicate tape.blank 0 := by
        rw [truncated, List.replicate_add]
        simp only [List.append_assoc, List.cons_append]
    _ = tape.cells := by rw [whole]; rfl

theorem covers_truncated (tape : Tape) : tape.Covers tape.truncated := by
  obtain ⟨count, whole⟩ := tape.exists_truncated_append
  refine ⟨⟨_, whole⟩, tape.position_lt_length_truncated, ?_⟩
  rw [← whole, List.drop_left]
  exact fun _ => List.eq_of_mem_replicate

/-- A prefix that holds the scanned cell holds all cells before it. -/
theorem exists_eq_append_of_prefix {tape : Tape} {part : List UInt8}
    (isPrefix : part <+: tape.cells) (scanned : tape.position < part.length) :
    ∃ more, part = tape.before.toList ++ tape.scanned :: more := by
  have front : tape.before.toList ++ [tape.scanned] <+: tape.cells := by simp [cells]
  have short : (tape.before.toList ++ [tape.scanned]).length ≤ part.length := by
    rw [List.length_append, List.length_singleton, Array.length_toList]
    exact scanned
  obtain ⟨more, whole⟩ := List.prefix_of_prefix_length_le front isPrefix short
  exact ⟨more, by rw [← whole, List.append_assoc, List.singleton_append]⟩

/-- What is kept begins every prefix that covers the tape. -/
theorem Covers.truncated_isPrefix {tape : Tape} {part : List UInt8} (covers : tape.Covers part) :
    tape.truncated <+: part := by
  obtain ⟨isPrefix, scanned, blank⟩ := covers
  obtain ⟨more, rfl⟩ := exists_eq_append_of_prefix isPrefix scanned
  obtain ⟨rest, whole⟩ := isPrefix
  rw [← whole, List.drop_left] at blank
  have behind : more ++ rest = tape.after ++ List.replicate tape.blank 0 := by
    simpa [cells] using whole
  have same : dropTrailingZeros tape.after = dropTrailingZeros more :=
    calc dropTrailingZeros tape.after
        = dropTrailingZeros (tape.after ++ List.replicate tape.blank 0) :=
          (dropTrailingZeros_append _ fun _ => List.eq_of_mem_replicate).symm
      _ = dropTrailingZeros (more ++ rest) := by rw [behind]
      _ = dropTrailingZeros more := dropTrailingZeros_append _ blank
  rw [truncated, same, List.prefix_append_right_inj, List.cons_prefix_cons]
  exact ⟨rfl, dropTrailingZeros_isPrefix more⟩

theorem lossless_truncated (tape : Tape) : tape.Lossless tape.truncated where
  covers := tape.covers_truncated
  shortest _ covers := covers.truncated_isPrefix.length_le
  nonempty := List.ne_nil_of_length_pos (Nat.zero_lt_of_lt tape.position_lt_length_truncated)
  padded := by
    obtain ⟨count, whole⟩ := tape.exists_truncated_append
    have missing : tape.cells.length - tape.truncated.length = count := by simp [← whole]
    rw [missing, whole]

/-! ## The end of the prefix by index -/

namespace Row

/-- The index of the last cell that is not zero, or 0 if all are. -/
def lastUsed (row : Row) : Nat :=
  Nat.findGreatest (fun index => row.cells.getD index 0 ≠ 0) (row.cells.length - 1)

/-- The cells up to the last one used or to the scanned one, whichever is further right, if there
are so many. -/
def truncated? (row : Row) : Option (List UInt8) :=
  let last := max row.lastUsed row.pointer
  if last < row.cells.length then some (row.cells.take (last + 1)) else none

/-- Behind the last cell that is used there are only zeros. -/
theorem eq_zero_of_lastUsed_lt {row : Row} {index : Nat} (behind : row.lastUsed < index)
    {cell : UInt8} (found : row.cells[index]? = some cell) : cell = 0 := by
  have inside : index < row.cells.length := (List.getElem?_eq_some_iff.mp found).1
  have zero := Nat.findGreatest_is_greatest behind (Nat.le_sub_one_of_lt inside)
  simpa [found] using zero

/-- The last cell that is used is not one of the zeros behind a prefix. -/
theorem lastUsed_lt {row : Row} {part : List UInt8} (nonempty : part ≠ [])
    (zeros : ∀ cell ∈ row.cells.drop part.length, cell = 0) : row.lastUsed < part.length := by
  apply Nat.lt_of_not_le
  intro outside
  -- Only the index 0 may be that of a zero, and the prefix is not empty.
  have positive : row.lastUsed ≠ 0 :=
    Nat.ne_of_gt (Nat.lt_of_lt_of_le (List.length_pos_of_ne_nil nonempty) outside)
  have used : row.cells.getD row.lastUsed 0 ≠ 0 := Nat.findGreatest_of_ne_zero rfl positive
  cases found : row.cells[row.lastUsed]? with
  | none => simp [found] at used
  | some cell =>
      have behind : (row.cells.drop part.length)[row.lastUsed - part.length]? = some cell := by
        rw [List.getElem?_drop, Nat.add_sub_cancel' outside, found]
      simp [found, zeros cell (List.mem_of_getElem? behind)] at used

end Row

/-- A prefix that goes up to the scanned cell and to the last one used covers the tape. -/
theorem covers_take {tape : Tape} {last : Nat} (used : tape.row.lastUsed ≤ last)
    (scanned : tape.position ≤ last) (inside : last < tape.cells.length) :
    tape.Covers (tape.cells.take (last + 1)) := by
  have length : (tape.cells.take (last + 1)).length = last + 1 := List.length_take_of_le inside
  refine ⟨List.take_prefix _ _, ?_, ?_⟩
  · rw [length]
    exact Nat.lt_succ_of_le scanned
  · rw [length]
    intro cell cellMem
    obtain ⟨index, found⟩ := List.mem_iff_getElem?.mp cellMem
    rw [List.getElem?_drop] at found
    have behind : tape.row.lastUsed < last + 1 + index := by omega
    exact Row.eq_zero_of_lastUsed_lt behind found

/-- The end of what is kept is found by index, and it is there. -/
theorem truncated?_row (tape : Tape) : tape.row.truncated? = some tape.truncated := by
  obtain ⟨covers, _, nonempty, _⟩ := tape.lossless_truncated
  have used : tape.row.lastUsed < tape.truncated.length :=
    Row.lastUsed_lt nonempty covers.blank
  have last_lt : max tape.row.lastUsed tape.position < tape.truncated.length :=
    Nat.max_lt.mpr ⟨used, covers.scanned⟩
  have inside : max tape.row.lastUsed tape.position < tape.cells.length :=
    Nat.lt_of_lt_of_le last_lt covers.isPrefix.length_le
  -- What the row keeps covers the tape as well, and it is no longer than the shortest that does.
  have found := covers_take (Nat.le_max_left _ _) (Nat.le_max_right _ _) inside
  have short : (tape.cells.take (max tape.row.lastUsed tape.position + 1)).length ≤
      tape.truncated.length :=
    Nat.le_trans (List.length_take_le _ _) last_lt
  rw [found.truncated_isPrefix.eq_of_length_le short]
  exact if_pos inside

/-! ## Scanned cells -/

/-- The index of the last cell that has been scanned so far. -/
def reach (tape : Tape) : Nat := tape.before.size + tape.after.length

@[simp] theorem reach_write (byte : UInt8) (tape : Tape) : (tape.write byte).reach = tape.reach :=
  rfl

@[simp] theorem reach_inc (tape : Tape) : tape.inc.reach = tape.reach := rfl

@[simp] theorem reach_dec (tape : Tape) : tape.dec.reach = tape.reach := rfl

@[simp] theorem reach_left (tape : Tape) : tape.left.reach = tape.reach := by
  rcases tape with ⟨⟨before⟩, scanned, after, blank⟩
  rcases List.eq_nil_or_concat before with rfl | ⟨front, previous, rfl⟩
  · rfl
  · simp [left, reach]
    omega

theorem reach_right_le (policy : Overflow) (tape : Tape) :
    (tape.right policy).1.reach ≤ tape.reach + 1 := by
  rcases tape with ⟨before, scanned, after, blank⟩
  cases after with
  | cons next after =>
      simp only [right, reach, Array.size_push, List.length_cons]
      omega
  | nil =>
      cases blank with
      | succ blank => simp [right, reach]
      | zero => cases policy <;> simp [right, reach]

theorem position_le_reach (tape : Tape) : tape.position ≤ tape.reach :=
  Nat.le_add_right _ _

theorem length_truncated_le (tape : Tape) : tape.truncated.length ≤ tape.reach + 1 := by
  have shorter := (dropTrailingZeros_isPrefix tape.after).length_le
  simp only [truncated, reach, List.length_append, Array.length_toList, List.length_cons]
  omega

end ForkTape.Tape
