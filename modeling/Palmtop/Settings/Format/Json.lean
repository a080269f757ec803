import Palmtop.Settings.Format.Scan
import Palmtop.Settings.Value
import Palmtop.Text.Decimal
import Palmtop.Text.Units

/-! # JSON

Objects, arrays and scalars, strictly as the format has them.  Of two members with one name the
later counts.  A number without point and exponent is an integer if 64 bits can hold it; minus zero
is none. A number that no double can hold is refused, and so is a half of a surrogate pair.
Containers nest at most 127 deep.
-/
namespace Palmtop.Settings.Json

open Scan

/-- White space between tokens. -/
def isSpace (c : Char) : Bool := c = ' ' || c = '\n' || c = '\t' || c = '\r'

/-- Four hexadecimal digits. -/
def unit : Scan Nat := do ofOption (Text.readDigits? 16 (← take 4))

/-- The character of an escape by number. -/
def escapedUnits : Scan Char := do
  let high ← unit
  if 0xD800 ≤ high ∧ high < 0xDC00 then
    expect '\\'
    expect 'u'
    let low ← unit
    ensure (0xDC00 ≤ low && low < 0xE000)
    return Char.ofNat (Text.joinUnits high low)
  else
    ensure !(0xDC00 ≤ high && high < 0xE000)
    return Char.ofNat high

/-- The character behind a backslash. -/
def escaped : Scan Char := do
  match ← next with
  | '\x22' => return '\x22'
  | '\\' => return '\\'
  | '/' => return '/'
  | 'b' => return '\x08'
  | 'f' => return '\x0c'
  | 'n' => return '\n'
  | 'r' => return '\r'
  | 't' => return '\t'
  | 'u' => escapedUnits
  | _ => failure

/-- The rest of a string behind its opening quote. -/
def stringRest : (fuel : Nat) → Scan (List Char)
  | 0 => failure
  | fuel + 1 => do
    match ← next with
    | '\x22' => return []
    | '\\' => return (← escaped) :: (← stringRest fuel)
    | c =>
      ensure (0x20 ≤ c.toNat)
      return c :: (← stringRest fuel)

/-- A string behind its opening quote. -/
def string : Scan String := do
  return String.ofList (← stringRest ((← rest).length + 1))

/-- Digits without a leading zero, unless zero is the only one. -/
def wholePart : Scan (List Char) := do
  let digits ← Scan.takeWhile Text.isDecimalDigit
  ensure (digits != [] && (digits.length == 1 || digits.head? != some '0'))
  return digits

/-- The point and digits of a number, if there are any. -/
def fractionPart : Scan (List Char) := do
  if ← accept '.' then
    let digits ← Scan.takeWhile Text.isDecimalDigit
    ensure (digits != [])
    return '.' :: digits
  else return []

/-- The exponent of a number, if it has one. -/
def exponentPart : Scan (List Char) := do
  match ← peek with
  | some 'e' | some 'E' =>
    let _ ← next
    let sign ← Scan.takeWhile fun c => c = '+' || c = '-'
    ensure (sign.length ≤ 1)
    let digits ← Scan.takeWhile Text.isDecimalDigit
    ensure (digits != [])
    return 'e' :: sign ++ digits
  | _ => return []

/-- An integer, if 64 bits can hold it. -/
def integer (negative : Bool) (n : Nat) : Value :=
  if negative then
    if n = 0 ∨ signedBound < n then .other else .int (-(n : Int))
  else if n < UInt64.size then .int n
  else .other

/-- A number. -/
def number : Scan Value := do
  let negative ← accept '-'
  let whole ← wholePart
  let tail := (← fractionPart) ++ (← exponentPart)
  let d ← ofOption (Text.readDecimal? (whole ++ tail))
  ensure d.fitsDouble
  return if tail = [] then integer negative d.mantissa else .other

mutual

/-- A value behind white space. -/
def value : (fuel depth : Nat) → Scan Value
  | 0, _ => failure
  | fuel + 1, depth => do
    skipWhile isSpace
    if ← acceptAll "null".toList then return .null
    else if ← acceptAll "true".toList then return .bool true
    else if ← acceptAll "false".toList then return .bool false
    else if ← accept '\x22' then return .text (← string)
    else if ← accept '[' then
      ensure (0 < depth)
      skipWhile isSpace
      if ← accept ']' then return .list [] else return .list (← items fuel (depth - 1))
    else if ← accept '\x7b' then
      ensure (0 < depth)
      skipWhile isSpace
      if ← accept '\x7d' then return .table []
      else return .table (Fields.ofList (← members fuel (depth - 1)))
    else number

/-- The items of an array up to its end, at least one. -/
def items : (fuel depth : Nat) → Scan (List Value)
  | 0, _ => failure
  | fuel + 1, depth => do
    let item ← value fuel depth
    skipWhile isSpace
    if ← accept ',' then return item :: (← items fuel depth)
    expect ']'
    return [item]

/-- The members of an object up to its end, at least one. -/
def members : (fuel depth : Nat) → Scan (List (String × Value))
  | 0, _ => failure
  | fuel + 1, depth => do
    skipWhile isSpace
    expect '\x22'
    let name ← string
    skipWhile isSpace
    expect ':'
    let item ← value fuel depth
    skipWhile isSpace
    if ← accept ',' then return (name, item) :: (← members fuel depth)
    expect '\x7d'
    return [(name, item)]

end

/-- How deep containers may nest. -/
def maxDepth : Nat := 127

/-- A value and nothing else. -/
def document (fuel : Nat) : Scan Value := do
  let v ← value fuel maxDepth
  skipWhile isSpace
  return v

/-- The members of the object a text holds. -/
def parse? (text : String) : Option Fields :=
  match runAll (document (2 * text.length + 2)) text with
  | some (.table fields) => some fields
  | _ => none

end Palmtop.Settings.Json
