import Palmtop.Text.Digits

/-! # UTF-16 units

Characters above U+FFFF take two units, a high and a low surrogate.  In ASCII text a unit that is no
printable ASCII character is written as `\u` and four hexadecimal digits.
-/
namespace Palmtop.Text

/-- The units of one character. -/
def unitsOf (c : Char) : List Nat :=
  if c.toNat < 0x10000 then [c.toNat]
  else
    let n := c.toNat - 0x10000
    [0xD800 + n / 0x400, 0xDC00 + n % 0x400]

/-- The number of the character that a high and a low surrogate make. -/
def joinUnits (high low : Nat) : Nat := 0x10000 + (high - 0xD800) * 0x400 + (low - 0xDC00)

/-- A unit in ASCII text. -/
def escapedUnit (n : Nat) : List Char := ['\\', 'u'] ++ padded 16 4 n

/-- Text with every character that is not printable ASCII written in units. -/
def asciiEscaped (s : String) : String :=
  s.foldl (fun out c =>
    if 0x20 ≤ c.toNat ∧ c.toNat < 0x7F then out.push c
    else ((unitsOf c).flatMap escapedUnit).foldl String.push out) ""

end Palmtop.Text
