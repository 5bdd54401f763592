/-!
# Lenient reading of UTF-8

Any row of bytes can be shown as text. Where it is not well-formed UTF-8, each maximal part that
begins a character without completing it, and each byte that can begin none, is shown as one
replacement character.

The reader looks at one byte at a time. Between characters nothing is pending. Inside one it
knows the bits collected so far, how many bytes are still to come, and in which interval the
next one must lie. Only the second byte of a character is bounded more narrowly than
`0x80, …, 0xBF`: that excludes overlong forms, surrogates and numbers past the last character.
-/

namespace ForkTape.Text.Utf8

/-- What stands for an ill-formed part. -/
def replacement : Char := '\uFFFD'

/-- A character of which some bytes have been read. -/
structure Pending where
  /-- The bits read so far, as a number. -/
  value : Nat
  /-- How many bytes are to come after the next one. -/
  more : Nat
  /-- The least value of the next byte. -/
  low : UInt8
  /-- The greatest value of the next byte. -/
  high : UInt8
  deriving DecidableEq, Repr

/-- The character begun by a byte that does not stand for a character alone. -/
def Pending.ofLead? (byte : UInt8) : Option Pending :=
  if 0xC2 ≤ byte ∧ byte ≤ 0xDF then some ⟨byte.toNat - 0xC0, 0, 0x80, 0xBF⟩
  else if byte = 0xE0 then some ⟨0, 1, 0xA0, 0xBF⟩
  else if byte = 0xED then some ⟨0xD, 1, 0x80, 0x9F⟩
  else if 0xE1 ≤ byte ∧ byte ≤ 0xEF then some ⟨byte.toNat - 0xE0, 1, 0x80, 0xBF⟩
  else if byte = 0xF0 then some ⟨0, 2, 0x90, 0xBF⟩
  else if 0xF1 ≤ byte ∧ byte ≤ 0xF3 then some ⟨byte.toNat - 0xF0, 2, 0x80, 0xBF⟩
  else if byte = 0xF4 then some ⟨4, 2, 0x80, 0x8F⟩
  else none

/-- A reader: the text so far and the character begun, if any. -/
structure Reader where
  text : String := ""
  pending : Option Pending := none

namespace Reader

/-- Read a byte between characters. -/
def begin (text : String) (byte : UInt8) : Reader :=
  if byte < 0x80 then ⟨text.push (Char.ofNat byte.toNat), none⟩
  else
    match Pending.ofLead? byte with
    | some pending => ⟨text, some pending⟩
    | none => ⟨text.push replacement, none⟩

/-- Read one byte. A byte that does not continue the character begun leaves that one ill-formed
and is read as if nothing had been pending. -/
def read (reader : Reader) (byte : UInt8) : Reader :=
  match reader with
  | ⟨text, none⟩ => begin text byte
  | ⟨text, some ⟨value, more, low, high⟩⟩ =>
      if low ≤ byte ∧ byte ≤ high then
        let value := 64 * value + byte.toNat % 64
        match more with
        | 0 => ⟨text.push (Char.ofNat value), none⟩
        | more + 1 => ⟨text, some ⟨value, more, 0x80, 0xBF⟩⟩
      else begin (text.push replacement) byte

/-- The text when there is nothing more to read. -/
def finish : Reader → String
  | ⟨text, none⟩ => text
  | ⟨text, some _⟩ => text.push replacement

end Reader

/-- The text that a row of bytes shows. -/
def lossy (bytes : List UInt8) : String :=
  (bytes.foldl Reader.read {}).finish

/-- The text whose UTF-8 form is exactly the given bytes, if there is one. -/
def strict? (bytes : List UInt8) : Option String :=
  String.fromUTF8? (ByteArray.mk bytes.toArray)

/-- The UTF-8 form of a text. -/
def bytes (text : String) : List UInt8 := text.toUTF8.data.toList

end ForkTape.Text.Utf8
