import ForkTape.Listing
import Mathlib.Data.Nat.Notation

/-!
# Reading columns

What has been brought to a least width is read back, however wide it is: leading zeros do not change
a number (`zeroPadded_inj`), and no digit is a blank, so a number ends where a blank stands or the
text ends (`word_append_inj`).
-/

namespace ForkTape.Text

/-- A padded number is made of digits. -/
theorem isDigit_of_mem_zeroPadded {width number : Nat} {char : Char}
    (charMem : char ∈ (zeroPadded width number).toList) : char.isDigit = true := by
  rw [zeroPadded, padStart, String.toList_ofList, List.leftpad, Nat.toString_eq_repr,
    Nat.toList_repr, List.mem_append] at charMem
  rcases charMem with zero | digit
  · rw [List.eq_of_mem_replicate zero]
    rfl
  · exact Nat.isDigit_of_mem_toDigits (by decide) (by decide) digit

theorem zeroPadded_ne_nil (width number : Nat) : (zeroPadded width number).toList ≠ [] := by
  rw [zeroPadded, padStart, String.toList_ofList, List.leftpad, Nat.toString_eq_repr,
    Nat.toList_repr]
  exact List.append_ne_nil_of_right_ne_nil _ Nat.toDigits_ne_nil

/-- The digits of a padded number have its value. -/
theorem ofDigitChars_zeroPadded (width number : Nat) :
    Nat.ofDigitChars 10 (zeroPadded width number).toList 0 = number := by
  rw [zeroPadded, padStart, String.toList_ofList, List.leftpad, Nat.toString_eq_repr,
    Nat.toList_repr, Nat.ofDigitChars_append, Nat.ofDigitChars_replicate_zero, Nat.mul_zero,
    Nat.ofDigitChars_ten_toDigits]

theorem toString_inj {first second : Nat}
    (same : (toString first).toList = (toString second).toList) : first = second := by
  rw [Nat.toString_eq_repr, Nat.toString_eq_repr, Nat.toList_repr, Nat.toList_repr] at same
  rw [← @Nat.ofDigitChars_ten_toDigits first, same, Nat.ofDigitChars_ten_toDigits]

theorem zeroPadded_inj {width first second : Nat}
    (same : (zeroPadded width first).toList = (zeroPadded width second).toList) :
    first = second := by
  rw [← ofDigitChars_zeroPadded width first, same, ofDigitChars_zeroPadded]

/-- What follows on leading blanks tells how many they are. -/
theorem blanks_append_inj {first second : Nat} {rest other : List Char}
    (notBlank : rest.head? ≠ some ' ') (otherNotBlank : other.head? ≠ some ' ')
    (same : List.replicate first ' ' ++ rest = List.replicate second ' ' ++ other) :
    first = second ∧ rest = other := by
  induction first generalizing second with
  | zero =>
      cases second with
      | zero => exact ⟨rfl, same⟩
      | succ second =>
          rw [List.replicate_zero, List.nil_append] at same
          rw [same] at notBlank
          exact absurd rfl notBlank
  | succ first ih =>
      cases second with
      | zero =>
          rw [List.replicate_zero, List.nil_append] at same
          rw [← same] at otherNotBlank
          exact absurd rfl otherNotBlank
      | succ second =>
          obtain ⟨rfl, sameRest⟩ := ih (List.cons.inj same).2
          exact ⟨rfl, sameRest⟩

/-- A text without blanks is told from what follows it by the blank with which that begins. -/
theorem word_append_inj {first second rest other : List Char}
    (unbroken : ' ' ∉ first) (otherUnbroken : ' ' ∉ second)
    (ends : ∀ char ∈ rest.head?, char = ' ') (otherEnds : ∀ char ∈ other.head?, char = ' ')
    (same : first ++ rest = second ++ other) : first = second ∧ rest = other := by
  induction first generalizing second with
  | nil =>
      cases second with
      | nil => exact ⟨rfl, same⟩
      | cons char second =>
          rw [List.nil_append] at same
          obtain rfl := ends char (by rw [same]; rfl)
          exact absurd List.mem_cons_self otherUnbroken
  | cons char first ih =>
      rw [List.mem_cons, not_or] at unbroken
      cases second with
      | nil =>
          rw [List.nil_append] at same
          exact absurd (otherEnds char (by rw [← same]; rfl)).symm unbroken.1
      | cons next second =>
          obtain ⟨rfl, sameTail⟩ := List.cons.inj same
          rw [List.mem_cons, not_or] at otherUnbroken
          obtain ⟨rfl, sameRest⟩ := ih unbroken.2 otherUnbroken.2 sameTail
          exact ⟨rfl, sameRest⟩

/-- A padded number does not begin with anything but a digit. -/
theorem head?_zeroPadded_append_ne (char : Char) (notDigit : char.isDigit = false)
    (width number : Nat) (rest : List Char) :
    ((zeroPadded width number).toList ++ rest).head? ≠ some char := by
  obtain ⟨digit, digits, padded⟩ := List.exists_cons_of_ne_nil (zeroPadded_ne_nil width number)
  have digitMem : digit ∈ (zeroPadded width number).toList := by
    rw [padded]
    exact List.mem_cons_self
  rw [padded, List.cons_append, List.head?_cons]
  rintro ⟨rfl⟩
  rw [isDigit_of_mem_zeroPadded digitMem] at notDigit
  contradiction

theorem blank_notMem_zeroPadded (width number : Nat) :
    ' ' ∉ (zeroPadded width number).toList := by
  intro blankMem
  exact absurd (isDigit_of_mem_zeroPadded blankMem) (by decide)

end ForkTape.Text
