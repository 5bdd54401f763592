/-!
# Binary formats

A binary format is a pair of functions: one writes a value as bytes, the other reads a value
from the front of a row of bytes and leaves the bytes behind it. Formats of compound values are
put together from the formats of their parts, so a value is written as its parts one after the
other.

Reading fails for one of five reasons. It reads from front to back and gives the first reason
it meets; what lies behind the value is not looked at.
-/

namespace ForkTape.Binary

/-- Why bytes cannot be read as a value. -/
inductive Error
  /-- The bytes end inside the value. -/
  | unexpectedEnd
  /-- A number does not end where the last of its bytes must be, or is too large. -/
  | badVarint
  /-- A truth value is neither 0 nor 1. -/
  | badBool
  /-- The mark of an optional value is neither 0 nor 1. -/
  | badOption
  /-- A choice has no alternative of this index. -/
  | noSuchChoice
  deriving DecidableEq, Repr

/-- The text of the error. -/
def Error.message : Error → String
  | unexpectedEnd => "Hit the end of buffer, expected more data"
  | badVarint =>
      "Found a varint that didn't terminate. Is the usize too big for this platform?"
  | badBool => "Found a bool that wasn't 0 or 1"
  | badOption => "Found an Option discriminant that wasn't 0 or 1"
  | noSuchChoice => "Serde Deserialization Error"

/-- A way to write values as bytes and to read them back. -/
structure Format (α : Type) where
  encode : α → List UInt8
  decode : List UInt8 → Except Error (α × List UInt8)

namespace Format

/-- A byte is written as itself. -/
def byte : Format UInt8 where
  encode value := [value]
  decode
    | [] => .error .unexpectedEnd
    | value :: rest => .ok (value, rest)

/-- A truth value is written as 0 or 1. -/
def bool : Format Bool where
  encode value := [if value then 1 else 0]
  decode
    | [] => .error .unexpectedEnd
    | 0 :: rest => .ok (false, rest)
    | 1 :: rest => .ok (true, rest)
    | _ :: _ => .error .badBool

/-- An optional value is written as 0, or as 1 and the value. -/
def option (format : Format α) : Format (Option α) where
  encode
    | none => [0]
    | some value => 1 :: format.encode value
  decode
    | [] => .error .unexpectedEnd
    | 0 :: rest => .ok (none, rest)
    | 1 :: rest =>
        match format.decode rest with
        | .ok (value, rest) => .ok (some value, rest)
        | .error error => .error error
    | _ :: _ => .error .badOption

/-- A pair is written as its first part and then its second. -/
def pair (first : Format α) (second : Format β) : Format (α × β) where
  encode value := first.encode value.1 ++ second.encode value.2
  decode bytes :=
    match first.decode bytes with
    | .error error => .error error
    | .ok (left, rest) =>
        match second.decode rest with
        | .error error => .error error
        | .ok (right, rest) => .ok ((left, right), rest)

/-- A value of `β` is written as the value of `α` that stands for it. -/
def map (format : Format α) (ofPart : α → β) (part : β → α) : Format β where
  encode value := format.encode (part value)
  decode bytes :=
    match format.decode bytes with
    | .ok (value, rest) => .ok (ofPart value, rest)
    | .error error => .error error

/-- Read `count` values, the ones read before in reverse order in front of them. -/
def decodeMany (format : Format α) :
    Nat → List α → List UInt8 → Except Error (List α × List UInt8)
  | 0, read, bytes => .ok (read.reverse, bytes)
  | count + 1, read, bytes =>
      match format.decode bytes with
      | .ok (value, rest) => decodeMany format count (value :: read) rest
      | .error error => .error error

/-- A list is written as its length, in the given format, and then its elements. -/
def listOf (length : Format Nat) (format : Format α) : Format (List α) where
  encode values := length.encode values.length ++ values.flatMap format.encode
  decode bytes :=
    match length.decode bytes with
    | .ok (count, rest) => format.decodeMany count [] rest
    | .error error => .error error

/-- One of finitely many values is written as its place among them, in the given format. -/
def choice [BEq α] (index : Format Nat) (values : List α) : Format α where
  encode value := index.encode (values.idxOf value)
  decode bytes :=
    match index.decode bytes with
    | .ok (place, rest) =>
        match values[place]? with
        | some value => .ok (value, rest)
        | none => .error .noSuchChoice
    | .error error => .error error

end Format

/-!
## Numbers of varying length

A number is written in base 128, the lowest digit first. Every byte but the last has its high
bit set. Numbers below `2 ^ bits` need at most `(bits + 6) / 7` bytes, and the last of that many
has only the bits that are left over. Reading accepts no more, but it does accept digits that
are zero at the high end.
-/

namespace Varint

/-- The digits of a number, the lowest first. -/
def encode (number : Nat) : List UInt8 :=
  if number < 128 then [UInt8.ofNat number]
  else UInt8.ofNat (number % 128 + 128) :: encode (number / 128)
termination_by number

/-- Read a number from its next digit on. After that digit `more` others may follow, and if none
may, it must not exceed `top`. -/
def decode (top : Nat) : Nat → List UInt8 → Except Error (Nat × List UInt8)
  | _, [] => .error .unexpectedEnd
  | 0, digit :: rest =>
      if digit.toNat ≤ top then .ok (digit.toNat, rest) else .error .badVarint
  | more + 1, digit :: rest =>
      if digit.toNat < 128 then .ok (digit.toNat, rest)
      else
        match decode top more rest with
        | .ok (high, rest) => .ok (digit.toNat - 128 + 128 * high, rest)
        | .error error => .error error

/-- The format of numbers below `2 ^ bits`. -/
def format (bits : Nat) : Format Nat where
  encode := encode
  decode := decode (Nat.pow 2 (bits - 7 * ((bits - 1) / 7)) - 1) ((bits - 1) / 7)

end Varint

end ForkTape.Binary
