import ForkTape.Binary.Format
import ForkTape.Proofs.Binary.Format
import Mathlib.Algebra.Group.Nat.Defs

/-!
# Numbers that delimit themselves

A number in base 128 ends with the first byte whose high bit is not set, so its bytes tell where
they end. A reader that admits as many digits as the numbers of its range need, and of the last
digit as much as is left of the range, reads every number of the range
(`Varint.delimits_format`): at every digit, what is left to read is within what the remaining
digits can hold.
-/

namespace ForkTape.Binary.Varint

open Format (Delimits)

/-- A number below 128 is one digit. -/
theorem encode_of_lt {number : Nat} (small : number < 128) :
    encode number = [UInt8.ofNat number] := by
  rw [encode, if_pos small]

/-- Any other number is its lowest digit, marked, and the number of the others. -/
theorem encode_of_le {number : Nat} (large : 128 ≤ number) :
    encode number = UInt8.ofNat (number % 128 + 128) :: encode (number / 128) := by
  rw [encode, if_neg (Nat.not_lt.mpr large)]

theorem toNat_digit {number : Nat} (small : number < 128) :
    (UInt8.ofNat number).toNat = number := by
  rw [UInt8.toNat_ofNat']
  omega

theorem toNat_marked (number : Nat) :
    (UInt8.ofNat (number % 128 + 128)).toNat = number % 128 + 128 := by
  rw [UInt8.toNat_ofNat']
  omega

/-- The digits behind the lowest one are within what is left for them. -/
theorem div_within {number top more : Nat} (within : number < (top + 1) * 128 ^ (more + 1)) :
    number / 128 < (top + 1) * 128 ^ more := by
  rw [Nat.pow_succ, ← Nat.mul_assoc] at within
  exact Nat.div_lt_of_lt_mul (Nat.mul_comm _ _ ▸ within)

variable {top : Nat}

/-- A number within what `more` digits and a last one up to `top` can hold is read back, whatever
follows it. -/
theorem decode_encode_append (digit : top < 128) (more : Nat) {number : Nat}
    (within : number < (top + 1) * 128 ^ more) (rest : List UInt8) :
    decode top more (encode number ++ rest) = .ok (number, rest) := by
  induction more generalizing number with
  | zero =>
      have small : number < 128 := by omega
      have le_top : number ≤ top := by omega
      rw [encode_of_lt small, List.singleton_append, decode, toNat_digit small, if_pos le_top]
  | succ more ih =>
      by_cases small : number < 128
      · rw [encode_of_lt small, List.singleton_append, decode, toNat_digit small, if_pos small]
      · have marked : ¬ number % 128 + 128 < 128 := by omega
        rw [encode_of_le (Nat.le_of_not_lt small), List.cons_append, decode, toNat_marked,
          if_neg marked, ih (div_within within)]
        simp only [Nat.add_sub_cancel, Nat.mod_add_div]

/-- A number whose last digits are missing ends unexpectedly. -/
theorem decode_cut (digit : top < 128) (more : Nat) {number : Nat}
    (within : number < (top + 1) * 128 ^ more) {part rest : List UInt8} {byte : UInt8}
    (goesOn : part ++ byte :: rest = encode number) :
    decode top more part = .error .unexpectedEnd := by
  induction more generalizing number part with
  | zero =>
      have small : number < 128 := by omega
      rw [encode_of_lt small] at goesOn
      rw [cut_singleton goesOn, decode]
  | succ more ih =>
      by_cases small : number < 128
      · rw [encode_of_lt small] at goesOn
        rw [cut_singleton goesOn, decode]
      · cases part with
        | nil => rw [decode]
        | cons first part =>
            rw [encode_of_le (Nat.le_of_not_lt small)] at goesOn
            obtain ⟨rfl, others⟩ := List.cons_eq_cons.mp goesOn
            have marked : ¬ number % 128 + 128 < 128 := by omega
            rw [decode, toNat_marked, if_neg marked, ih (div_within within) others]

/-- The format of numbers below `2 ^ bits` delimits each of them. -/
theorem delimits_format {bits number : Nat} (within : number < 2 ^ bits) :
    (format bits).Delimits number := by
  -- All digits but the last have seven bits, and the last has those that are left over.
  generalize more_eq : (bits - 1) / 7 = more
  generalize left_eq : bits - 7 * more = left
  have few : left ≤ 7 := by omega
  have all : left + 7 * more = bits := by omega
  have powers : 2 ^ left - 1 + 1 = 2 ^ left := Nat.sub_add_cancel Nat.one_le_two_pow
  have digit : 2 ^ left - 1 < 128 := by
    have bound : 2 ^ left ≤ 2 ^ 7 := Nat.pow_le_pow_right (by decide) few
    omega
  have range : number < (2 ^ left - 1 + 1) * 128 ^ more := by
    rw [← all, Nat.pow_add, Nat.pow_mul] at within
    rwa [powers]
  have decodes : (format bits).decode = decode (2 ^ left - 1) more := by
    simp only [format, more_eq, left_eq]
    rfl
  constructor
  · intro rest
    rw [decodes]
    exact decode_encode_append digit more range rest
  · intro part rest byte goesOn
    rw [decodes]
    exact decode_cut digit more range goesOn

end ForkTape.Binary.Varint
