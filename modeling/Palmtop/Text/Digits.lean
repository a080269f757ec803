/-! # Numbers in a base

Numbers are written with the core library's digits, padded on the left with zeros to a least width
(`padded`), and read back from a non-empty run of digits of either case, optionally after one plus
sign (`readNumber?`).  Reading is bounded: a number that does not fit below the bound is refused,
however many leading zeros it is written with.
-/
namespace Palmtop.Text

/-- `n` in base `base`, with zeros in front up to `width` places; longer numbers keep all digits. -/
def padded (base width n : Nat) : List Char :=
  let digits := Nat.toDigits base n
  List.replicate (width - digits.length) '0' ++ digits

/-- Eight lower-case hexadecimal places, the form of every identifier the user sees. -/
def hex8 (n : Nat) : String := String.ofList (padded 16 8 n)

/-- The value of a digit, in either case, below base 36. -/
def digitValue (c : Char) : Option Nat :=
  if '0' ≤ c ∧ c ≤ '9' then some (c.toNat - '0'.toNat)
  else if 'a' ≤ c ∧ c ≤ 'z' then some (c.toNat - 'a'.toNat + 10)
  else if 'A' ≤ c ∧ c ≤ 'Z' then some (c.toNat - 'A'.toNat + 10)
  else none

/-- The value of `c` as one digit of base `base`. -/
def digitIn? (base : Nat) (c : Char) : Option Nat :=
  (digitValue c).filter (· < base)

/-- Digits read after the value `acc`; refused at the first character that is no digit. -/
def readDigitsFrom? (base : Nat) : Nat → List Char → Option Nat
  | acc, [] => some acc
  | acc, c :: rest =>
    match digitIn? base c with
    | some d => readDigitsFrom? base (acc * base + d) rest
    | none => none

/-- A non-empty run of digits and nothing else. -/
def readDigits? (base : Nat) : List Char → Option Nat
  | [] => none
  | cs => readDigitsFrom? base 0 cs

/-- An optional plus sign, then digits, for a value below `bound`. -/
def readNumber? (base bound : Nat) (cs : List Char) : Option Nat :=
  let digits := match cs with
    | '+' :: rest => rest
    | _ => cs
  (readDigits? base digits).filter (· < bound)

end Palmtop.Text
