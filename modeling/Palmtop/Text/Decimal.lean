import Palmtop.Text.Digits

/-! # Decimal notation

Digits with an optional point and an optional power of ten.  What is asked of a decimal here is only
whether a double can hold it: it can if it lies below the middle between the greatest double and the
power of two after it.
-/
namespace Palmtop.Text

/-- The number `mantissa * 10 ^ exponent`. -/
structure Decimal where
  mantissa : Nat
  exponent : Int
  deriving DecidableEq

/-- A decimal digit. -/
def isDecimalDigit (c : Char) : Bool := '0' ≤ c && c ≤ '9'

/-- Removes a sign in front. -/
def unsigned : List Char → List Char
  | '+' :: rest | '-' :: rest => rest
  | cs => cs

/-- An exponent behind its letter: an optional sign and at least one digit. -/
def readExponent? (cs : List Char) : Option Int :=
  (readDigits? 10 (unsigned cs)).map fun n => if cs.head? = some '-' then -(n : Int) else n

/-- Reads a decimal without a sign.  At least one digit stands before or behind the point. -/
def readDecimal? (cs : List Char) : Option Decimal :=
  let whole := cs.takeWhile isDecimalDigit
  let rest := cs.drop whole.length
  let fraction := match rest with
    | '.' :: rest => rest.takeWhile isDecimalDigit
    | _ => []
  let rest := match rest with
    | '.' :: rest => rest.drop fraction.length
    | _ => rest
  let exponent? := match rest with
    | [] => some 0
    | c :: rest => if c = 'e' ∨ c = 'E' then readExponent? rest else none
  match readDigits? 10 (whole ++ fraction), exponent? with
  | some mantissa, some exponent => some ⟨mantissa, exponent - fraction.length⟩
  | _, _ => none

/-- The least number that no double holds. -/
def doubleBound : Nat := (1 <<< 54 - 1) <<< 970

/-- Whether a double holds the number, rounded.  Far away from the bound the number of digits
decides. -/
def Decimal.fitsDouble (d : Decimal) : Bool :=
  let magnitude := (Nat.toDigits 10 d.mantissa).length + d.exponent
  if d.mantissa = 0 ∨ magnitude < 300 then true
  else if 320 < magnitude then false
  else if d.exponent < 0 then d.mantissa < doubleBound * Nat.pow 10 d.exponent.natAbs
  else d.mantissa * Nat.pow 10 d.exponent.natAbs < doubleBound

end Palmtop.Text
