import Palmtop.Settings.Format.Scan
import Palmtop.Settings.Value
import Palmtop.Text.Decimal

/-! # TOML scalars

Strings of four kinds, integers of 64 bits in four bases, floating point numbers, dates and times.
A number or date is first taken as a whole and then read, since nothing that can follow it can be
part of it.  Line ends are single line feeds here.
-/
namespace Palmtop.Settings.Toml

open Scan

/-! ## Strings -/

/-- A character that stands for itself in a string or comment. -/
def isShown (c : Char) : Bool := c = '\t' || (0x20 ≤ c.toNat && c.toNat != 0x7F)

/-- Blanks within a line. -/
def isSpace (c : Char) : Bool := c = ' ' || c = '\t'

/-- The character with this number in hexadecimal. -/
def numbered (digits : List Char) : Scan Char := do
  let n ← ofOption (Text.readDigits? 16 digits)
  ensure (n < 0xD800 || (0xE000 ≤ n && n < 0x110000))
  return Char.ofNat n

/-- The character behind a backslash. -/
def escaped : Scan Char := do
  match ← next with
  | '\x22' => return '\x22'
  | '\\' => return '\\'
  | 'b' => return '\x08'
  | 'f' => return '\x0c'
  | 'n' => return '\n'
  | 'r' => return '\r'
  | 't' => return '\t'
  | 'u' => numbered (← take 4)
  | 'U' => numbered (← take 8)
  | _ => failure

/-- The rest of a string on one line, up to `quote`; `escapes` says whether backslashes escape. -/
def lineString (quote : Char) (escapes : Bool) : (fuel : Nat) → Scan (List Char)
  | 0 => failure
  | fuel + 1 => do
    let c ← next
    if c = quote then return []
    if escapes && c = '\\' then return (← escaped) :: (← lineString quote escapes fuel)
    ensure (isShown c)
    return c :: (← lineString quote escapes fuel)

/-- A backslash at the end of a line takes the line end and all blanks and line ends behind it. -/
def lineContinuation : Scan Bool := do
  let cs ← rest
  match cs.dropWhile isSpace with
  | '\n' :: cs => set (cs.dropWhile fun c => isSpace c || c = '\n'); return true
  | _ => return false

/-- The rest of a string on several lines, up to three of `quote`.  One or two more in front of
these three belong to the string. -/
def blockString (quote : Char) (escapes : Bool) : (fuel : Nat) → Scan (List Char)
  | 0 => failure
  | fuel + 1 => do
    let quotes := ((← rest).takeWhile (· = quote)).length
    if 3 ≤ quotes then
      take (min quotes 5) |>.map (·.drop 3)
    else
      let c ← next
      if escapes && c = '\\' then
        if ← lineContinuation then blockString quote escapes fuel
        else return (← escaped) :: (← blockString quote escapes fuel)
      else
        ensure (isShown c || c = '\n')
        return c :: (← blockString quote escapes fuel)

/-- A string that opens with `quote`. -/
def string (quote : Char) : Scan String := do
  let escapes := quote = '\x22'
  let fuel := (← rest).length + 1
  if ← acceptAll [quote, quote, quote] then
    let _ ← accept '\n'
    return String.ofList (← blockString quote escapes fuel)
  else
    expect quote
    return String.ofList (← lineString quote escapes fuel)

/-! ## Numbers -/

/-- Digits of a base with single underscores between them, the underscores left out. -/
def plainDigits? (base : Nat) (cs : List Char) : Option (List Char) :=
  let isDigit (c : Char) := (Text.digitIn? base c).isSome
  let parts := Path.splitOnChar '_' cs
  if parts.all fun part => part != [] && part.all isDigit then some parts.flatten else none

/-- Digits that do not start with zero, unless zero is the only one. -/
def wholeDigits? (cs : List Char) : Option (List Char) :=
  (plainDigits? 10 cs).filter fun digits => digits.length = 1 || digits.head? != some '0'

/-- A natural number in one of the four bases. -/
def natural? : List Char → Option Nat
  | '0' :: 'x' :: cs => (plainDigits? 16 cs).bind (Text.readDigits? 16)
  | '0' :: 'o' :: cs => (plainDigits? 8 cs).bind (Text.readDigits? 8)
  | '0' :: 'b' :: cs => (plainDigits? 2 cs).bind (Text.readDigits? 2)
  | cs => (wholeDigits? cs).bind (Text.readDigits? 10)

/-- An integer of 64 bits; only decimal ones have a sign. -/
def integer? (token : List Char) : Option Value :=
  match token with
  | '-' :: cs =>
    ((wholeDigits? cs).bind (Text.readDigits? 10)).bind fun n =>
      if n ≤ signedBound then some (.int (-(n : Int))) else none
  | '+' :: cs => ((wholeDigits? cs).bind (Text.readDigits? 10)).bind below
  | cs => (natural? cs).bind below
where
  below (n : Nat) : Option Value := if n < signedBound then some (.int n) else none

/-- A floating point number: a whole part and a fraction or an exponent or both; or a word. -/
def float? (token : List Char) : Option Value :=
  let cs := Text.unsigned token
  if cs = "inf".toList ∨ cs = "nan".toList then some .other
  else
    let isExponent (c : Char) := c = 'e' || c = 'E'
    let mantissa := cs.takeWhile (!isExponent ·)
    let whole := mantissa.takeWhile (· != '.')
    let fraction? := match mantissa.drop whole.length with
      | [] => some []
      | _ :: digits => (plainDigits? 10 digits).map ('.' :: ·)
    let exponent? := match cs.drop mantissa.length with
      | [] => some []
      | _ :: power => (plainDigits? 10 (Text.unsigned power)).map fun digits =>
          'e' :: (if power.head? = some '-' then '-' :: digits else digits)
    match wholeDigits? whole, fraction?, exponent? with
    | some whole, some fraction, some exponent =>
      if fraction = [] ∧ exponent = [] then none
      else match Text.readDecimal? (whole ++ fraction ++ exponent) with
        | some d => if d.fitsDouble ∨ token.head? = some '-' then some .other else none
        | none => none
    | _, _, _ => none

/-! ## Dates and times -/

/-- A number of exactly so many digits, between two bounds. -/
def field? (width low high : Nat) (cs : List Char) : Option Nat :=
  if cs.length = width then
    (Text.readDigits? 10 cs).filter fun n => low ≤ n && n ≤ high
  else none

/-- The number of days in a month. -/
def daysIn (year month : Nat) : Nat :=
  if month = 2 then
    if year % 4 = 0 ∧ (year % 100 ≠ 0 ∨ year % 400 = 0) then 29 else 28
  else if month ∈ [4, 6, 9, 11] then 30 else 31

/-- Year, month and day. -/
def isDate (cs : List Char) : Bool :=
  match Path.splitOnChar '-' cs with
  | [y, m, d] =>
    match field? 4 0 9999 y, field? 2 1 12 m with
    | some year, some month => (field? 2 1 (daysIn year month) d).isSome
    | _, _ => false
  | _ => false

/-- Hour, minute and second, the second with any fraction. -/
def isTime (cs : List Char) : Bool :=
  match Path.splitOnChar ':' cs with
  | [h, m, s] =>
    let whole := s.takeWhile (· != '.')
    let fraction := s.drop whole.length
    (field? 2 0 23 h).isSome && (field? 2 0 59 m).isSome && (field? 2 0 60 whole).isSome &&
      (fraction == [] || (fraction.length > 1 && (fraction.drop 1).all Text.isDecimalDigit))
  | _ => false

/-- A time with or without an offset. -/
def isTimeWithOffset (cs : List Char) : Bool :=
  match cs.reverse with
  | 'Z' :: time | 'z' :: time => isTime time.reverse
  | _ =>
    let time := cs.takeWhile fun c => c != '+' && c != '-'
    match cs.drop time.length with
    | [] => isTime time
    | _ :: offset =>
      match Path.splitOnChar ':' offset with
      | [h, m] => isTime time && (field? 2 0 23 h).isSome && (field? 2 0 59 m).isSome
      | _ => false

/-- A date, a time, or both with a letter between them. -/
def isDateTime (cs : List Char) : Bool :=
  isDate cs || isTime cs ||
    (isDate (cs.take 10) && match cs.drop 10 with
      | 'T' :: time | 't' :: time => isTimeWithOffset time
      | _ => false)

/-! ## Scalars -/

/-- A character of a number or date. -/
def isTokenChar (c : Char) : Bool :=
  c.isAlphanum || c = '_' || c = '+' || c = '-' || c = '.' || c = ':'

/-- A number, date or word.  A date and a time may have a space between them. -/
def bare : Scan Value := do
  let token ← Scan.takeWhile isTokenChar
  if token = "true".toList then return .bool true
  if token = "false".toList then return .bool false
  if isDate token then
    let cs ← rest
    let time := (cs.drop 1).takeWhile isTokenChar
    if cs.head? = some ' ' ∧ isTimeWithOffset time then
      let _ ← take (time.length + 1)
    return .other
  if isDateTime token then return .other
  ofOption ((integer? token).orElse fun _ => float? token)

/-- A scalar. -/
def scalar : Scan Value := do
  match ← peek with
  | some '\x22' => return .text (← string '\x22')
  | some '\'' => return .text (← string '\'')
  | _ => bare

end Palmtop.Settings.Toml
