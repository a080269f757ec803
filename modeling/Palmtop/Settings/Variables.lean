import Palmtop.Settings.Format.Scan
import Palmtop.Settings.Value
import Palmtop.Text.Blank
import Palmtop.Text.Decimal

/-! # Variables

Settings in the environment.  A variable is a setting if its name starts with a fixed word, in
either case of its letters; what follows is the key, in lower case, with dots between the keys of
tables inside tables.

What a variable says is written in a small notation: truth values, numbers, lists in brackets,
tables in braces, text with or without quotes.  What is not in that notation is text as a whole.
-/
namespace Palmtop.Settings

/-- The environment: names and what they stand for. -/
abbrev Variables := List (String × String)

namespace Variables

open Scan

/-! ## Values -/

/-- White space between the parts of a value. -/
def isSpace (c : Char) : Bool := c = ' ' || c = '\t' || c = '\n' || c = '\x0c' || c = '\r'

/-- A character that ends text without quotes. -/
def isSeparator (c : Char) : Bool := c = ',' || c = '\x7b' || c = '\x7d' || c = '[' || c = ']'

/-- A character of a key without quotes. -/
def isKeyChar (c : Char) : Bool := c.isAlphanum || c = '_' || c = '-'

/-- An integer of 64 bits, with or without a sign. -/
def int? (cs : List Char) : Option Int :=
  match cs with
  | '-' :: digits =>
    (Text.readDigits? 10 digits).bind fun n => if n ≤ signedBound then some (-(n : Int)) else none
  | cs => (Text.readNumber? 10 UInt64.size cs).map Int.ofNat

/-- Whether the text is a number of any other kind: with a fraction or an exponent, too big for 64
bits, or a word for what is no number. -/
def isFloat (cs : List Char) : Bool :=
  let cs := Text.unsigned cs
  String.ofList (cs.map Char.toLower) ∈ ["inf", "infinity", "nan"] || (Text.readDecimal? cs).isSome

/-- What text without quotes stands for. -/
def bare (cs : List Char) : Value :=
  match int? cs with
  | some n => .int n
  | none => if isFloat cs then .other else .text (String.ofList cs)

/-- The character with this number in so many hexadecimal digits. -/
def numbered (width : Nat) : Scan Char := do
  let n ← ofOption (Text.readDigits? 16 (← take width))
  ensure (n < 0xD800 || (0xE000 ≤ n && n < 0x110000))
  return Char.ofNat n

/-- The character behind a backslash. -/
def escaped : Scan Char := do
  match ← next with
  | '\x22' => return '\x22'
  | '\\' => return '\\'
  | 'b' => return '\x08'
  | 'f' => return '\x0c'
  | 'n' => return '\n'
  | 'r' => return '\r'
  | 't' => return '\t'
  | 'u' => numbered 4
  | 'U' => numbered 8
  | _ => failure

/-- The rest of text in quotes. -/
def quotedRest : (fuel : Nat) → Scan (List Char)
  | 0 => failure
  | fuel + 1 => do
    match ← next with
    | '\x22' => return []
    | '\\' => return (← escaped) :: (← quotedRest fuel)
    | c =>
      ensure (c = '\t' || (0x20 ≤ c.toNat && c.toNat != 0x7F))
      return c :: (← quotedRest fuel)

/-- Text in quotes. -/
def quoted : Scan String := do
  expect '\x22'
  return String.ofList (← quotedRest ((← rest).length + 1))

/-- A key. -/
def key : Scan String := do
  if (← peek) == some '\x22' then quoted
  else
    let cs ← Scan.takeWhile isKeyChar
    ensure (cs != [])
    return String.ofList cs

mutual

/-- A value, with white space around it. -/
def value : (fuel : Nat) → Scan Value
  | 0 => failure
  | fuel + 1 => do
    skipWhile isSpace
    let v ← content fuel
    skipWhile isSpace
    return v

/-- A value without white space around it. -/
def content : (fuel : Nat) → Scan Value
  | 0 => failure
  | fuel + 1 => do
    if ← acceptAll "true".toList then return .bool true
    if ← acceptAll "false".toList then return .bool false
    match ← peek with
    | some '\x7b' =>
      expect '\x7b'
      return .table (Fields.ofList (← members fuel))
    | some '[' =>
      expect '['
      return .list (← items fuel)
    | some '\x22' => return .text (← quoted)
    | some '\'' =>
      expect '\''
      let c ← next
      expect '\''
      return .text c.toString
    | _ => return bare (Text.trimBlank (← Scan.takeWhile (!isSeparator ·)))

/-- The items of a list up to its end. -/
def items : (fuel : Nat) → Scan (List Value)
  | 0 => failure
  | fuel + 1 => do
    if ← accept ']' then return []
    let item ← value fuel
    if ← accept ',' then return item :: (← items fuel)
    expect ']'
    return [item]

/-- The members of a table up to its end. -/
def members : (fuel : Nat) → Scan (List (String × Value))
  | 0 => failure
  | fuel + 1 => do
    if ← accept '\x7d' then return []
    skipWhile isSpace
    let name ← key
    skipWhile isSpace
    expect '='
    let item ← value fuel
    if ← accept ',' then return (name, item) :: (← members fuel)
    expect '\x7d'
    return [(name, item)]

end

/-- What a variable says. -/
def read (text : String) : Value :=
  (runAll (value (3 * text.length + 3)) text).getD (.text text)

/-! ## Names -/

/-- What the name of every setting starts with. -/
def start : String := "handheld_"

/-- The keys a name stands for, from the outermost table to the innermost; none if it is no
setting. -/
def path? (name : String) : Option (List String) :=
  let cs := (Text.trimBlank name.toList).map Char.toLower
  if start.toList.isPrefixOf cs then
    let parts := Path.splitOnChar '.' (Text.trimBlank (cs.drop start.length))
    if parts.contains [] then none else some (parts.map String.ofList)
  else none

/-- A value inside as many tables as there are keys. -/
def nest (v : Value) : List String → Value
  | [] => v
  | key :: path => .table [(key, nest v path)]

/-- The settings in the environment. -/
def fields (environment : Variables) : Fields :=
  environment.foldl (fun under (name, text) =>
    match path? name with
    | some (key :: path) => Value.overlayFields under [(key, nest (read text) path)]
    | _ => under) []

end Variables

end Palmtop.Settings
