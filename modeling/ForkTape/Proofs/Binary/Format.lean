import ForkTape.Binary.Format

/-!
# Values that delimit themselves

A format delimits a value when the bytes of the value tell by themselves where they end: they are
read back whatever follows them, and as long as some of them are missing, reading comes to the end
of the bytes and fails (`Format.Delimits`).

Formats that are put together from others delimit the values whose parts they delimit. So a
format is followed through its parts down to bytes and numbers, and values that the format of a
number cannot hold are the only ones left out.
-/

namespace ForkTape.Binary

/-- A row of bytes that goes on behind `part` is a row of two pieces: `part` ends within the first
of them, or it has passed the first and ends within the second. -/
theorem cut_append {first second part rest : List UInt8} {byte : UInt8}
    (goesOn : part ++ byte :: rest = first ++ second) :
    (∃ next others, part ++ next :: others = first) ∨
      ∃ more, part = first ++ more ∧ more ++ byte :: rest = second := by
  rcases List.append_eq_append_iff.mp goesOn with ⟨left, rfl, same⟩ | ⟨more, rfl, rfl⟩
  · cases left with
    | nil => exact .inr ⟨[], by simp, same⟩
    | cons next others => exact .inl ⟨next, others, rfl⟩
  · exact .inr ⟨more, rfl, rfl⟩

/-- A row that goes on to a single byte has not begun. -/
theorem cut_singleton {part rest : List UInt8} {byte only : UInt8}
    (goesOn : part ++ byte :: rest = [only]) : part = [] := by
  cases part with
  | nil => rfl
  | cons first part => simp at goesOn

namespace Format

variable {α β : Type}

/-- The bytes of the value are read back, whatever follows them, and no fewer of them can be read
as a value. -/
structure Delimits (format : Format α) (value : α) : Prop where
  whole (more : List UInt8) : format.decode (format.encode value ++ more) = .ok (value, more)
  cut {part rest : List UInt8} {byte : UInt8}
    (goesOn : part ++ byte :: rest = format.encode value) :
    format.decode part = .error .unexpectedEnd

theorem delimits_byte (value : UInt8) : byte.Delimits value where
  whole _ := rfl
  cut goesOn := by
    rw [cut_singleton goesOn]
    rfl

theorem delimits_bool (value : Bool) : bool.Delimits value where
  whole _ := by cases value <;> rfl
  cut goesOn := by
    rw [cut_singleton goesOn]
    rfl

/-- An optional value is delimited when the value is, if there is one. -/
theorem delimits_option {format : Format α} {value? : Option α}
    (delimits : ∀ value ∈ value?, format.Delimits value) : format.option.Delimits value? := by
  cases value? with
  | none =>
      constructor
      · intro _
        rfl
      · intro part rest next goesOn
        rw [cut_singleton goesOn]
        rfl
  | some value =>
      have inner := delimits value rfl
      constructor
      · intro more
        simp [option, inner.whole more]
      · intro part rest next goesOn
        cases part with
        | nil => rfl
        | cons mark part =>
            obtain ⟨rfl, within⟩ := List.cons_eq_cons.mp goesOn
            have ended := inner.cut within
            simp [option, ended]

/-- A pair is delimited when its parts are. -/
theorem delimits_pair {first : Format α} {second : Format β} {value : α × β}
    (left : first.Delimits value.1) (right : second.Delimits value.2) :
    (first.pair second).Delimits value where
  whole more := by simp [pair, List.append_assoc, left.whole, right.whole]
  cut goesOn := by
    rcases cut_append goesOn with ⟨_, _, within⟩ | ⟨more, rfl, within⟩
    · simp [pair, left.cut within]
    · simp [pair, left.whole, right.cut within]

/-- A value is delimited when what stands for it is and the value can be regained from it. -/
theorem delimits_map {format : Format α} {ofPart : α → β} {part : β → α} {value : β}
    (delimits : format.Delimits (part value)) (regained : ofPart (part value) = value) :
    (format.map ofPart part).Delimits value where
  whole more := by simp [map, delimits.whole, regained]
  cut goesOn := by simp [map, delimits.cut goesOn]

/-! ## Lists -/

variable {format : Format α} {values : List α}

/-- As many values as were written are read back. -/
theorem decodeMany_flatMap (delimits : ∀ value ∈ values, format.Delimits value) (read : List α)
    (more : List UInt8) :
    format.decodeMany values.length read (values.flatMap format.encode ++ more) =
      .ok (read.reverse ++ values, more) := by
  induction values generalizing read with
  | nil => simp [decodeMany]
  | cons value values ih =>
      rw [List.forall_mem_cons] at delimits
      simp [decodeMany, delimits.1.whole, ih delimits.2]

/-- Of values that were not written to the end not as many are read back. -/
theorem decodeMany_cut (delimits : ∀ value ∈ values, format.Delimits value) (read : List α)
    {part rest : List UInt8} {byte : UInt8}
    (goesOn : part ++ byte :: rest = values.flatMap format.encode) :
    format.decodeMany values.length read part = .error .unexpectedEnd := by
  induction values generalizing read part with
  | nil => simp at goesOn
  | cons value values ih =>
      rw [List.forall_mem_cons] at delimits
      rw [List.flatMap_cons] at goesOn
      rcases cut_append goesOn with ⟨_, _, within⟩ | ⟨more, rfl, within⟩
      · simp [decodeMany, delimits.1.cut within]
      · simp [decodeMany, delimits.1.whole, ih delimits.2 _ within]

/-- A list is delimited when its length and its elements are. -/
theorem delimits_listOf {length : Format Nat} (counted : length.Delimits values.length)
    (delimits : ∀ value ∈ values, format.Delimits value) :
    (listOf length format).Delimits values where
  whole more := by simp [listOf, counted.whole, decodeMany_flatMap delimits]
  cut goesOn := by
    rcases cut_append goesOn with ⟨_, _, within⟩ | ⟨more, rfl, within⟩
    · simp [listOf, counted.cut within]
    · simp [listOf, counted.whole, decodeMany_cut delimits [] within]

end Format

end ForkTape.Binary
