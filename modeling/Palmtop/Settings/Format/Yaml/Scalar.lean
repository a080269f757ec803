import Palmtop.Settings.Format.Yaml.Cursor
import Palmtop.Settings.Value
import Palmtop.Text.Decimal

/-! # YAML scalars

The five ways to write a scalar: plain, in single or double quotes, literal, folded.  Only the text
of a plain one can stand for something else than text: nothing, a truth value, or a number.
-/
namespace Palmtop.Settings.Yaml

open Walk

/-! ## What plain text stands for -/

/-- Words for nothing. -/
def isNull (s : String) : Bool := s ∈ ["null", "Null", "NULL", "~"]

/-- Words for truth values. -/
def bool? (s : String) : Option Bool :=
  if s ∈ ["true", "True", "TRUE"] then some true
  else if s ∈ ["false", "False", "FALSE"] then some false
  else none

/-- Decimal digits with a zero in front, which do not count as a number. -/
def isZeroPadded (cs : List Char) : Bool :=
  let cs := Text.unsigned cs
  1 < cs.length && cs.head? == some '0' && cs.all Text.isDecimalDigit

/-- A number without a sign, in one of four bases. -/
def natural? : List Char → Option Nat
  | '0' :: 'x' :: cs => Text.readDigits? 16 cs
  | '0' :: 'o' :: cs => Text.readDigits? 8 cs
  | '0' :: 'b' :: cs => Text.readDigits? 2 cs
  | cs => if isZeroPadded cs then none else Text.readDigits? 10 cs

/-- An integer. -/
def int? : List Char → Option Value
  | '-' :: cs => (natural? cs).bind fun n => if n ≤ 1 <<< 127 then some (.int (-(n : Int))) else none
  | '+' :: cs => (natural? cs).bind below
  | cs => (natural? cs).bind below
where
  below (n : Nat) : Option Value := if n < 1 <<< 128 then some (.int n) else none

/-- A number that a double holds, or a word for what is no such number. -/
def float? (cs : List Char) : Option Value :=
  let word := String.ofList (Text.unsigned cs)
  if word ∈ [".inf", ".Inf", ".INF"] ∨ String.ofList cs ∈ [".nan", ".NaN", ".NAN"] then some .other
  else match Text.readDecimal? (Text.unsigned cs) with
    | some d => if d.fitsDouble then some .other else none
    | none => none

/-- What plain text stands for. -/
def resolve (s : String) : Value :=
  if s.isEmpty || isNull s then .null
  else match bool? s with
    | some b => .bool b
    | none =>
      let cs := s.toList
      let number := (int? cs).orElse fun _ => if isZeroPadded cs then none else float? cs
      number.getD (.text s)

/-! ## Lines -/

/-- What the white space between two parts of a scalar stands for: blanks for themselves, one line
end for a space, and more of them for all but the first. -/
def folded (blanks : List Char) (first : Option (List Char)) (later : List Char) : List Char :=
  match first with
  | none => blanks
  | some ['\n'] => if later = [] then [' '] else later
  | some first => first ++ later

/-- Takes white space inside a scalar; gives what it stands for and whether a line ended.  `first`
is the first line end if it was already taken.  A tab left of column `indent` is refused on all
lines but the first. -/
def gap (indent : Nat) : (fuel : Nat) → (blanks : List Char) → (first : Option (List Char)) →
    (later : List Char) → Walk (List Char × Bool)
  | 0, _, _, _ => failure
  | fuel + 1, blanks, first, later => do
    match ← peek with
    | some c =>
      if isSpace c then
        ensure !(first.isSome && c = '\t' && (← get).column < indent)
        skip 1
        gap indent fuel (if first.isSome then blanks else blanks ++ [c]) first later
      else if isBreak c then
        let cs ← lineEnd
        if first.isSome then gap indent fuel blanks first (later ++ cs)
        else gap indent fuel blanks (some cs) later
      else return (folded blanks first later, first.isSome)
    | none => return (folded blanks first later, first.isSome)

/-- Enough fuel for what is left. -/
def fuelLeft : Walk Nat := return (← get).rest.length + 1

/-! ## Plain scalars -/

/-- Whether brackets or commas are part of the format around a scalar. -/
def isFlowMark (c : Char) : Bool := c = ',' || c = '[' || c = ']' || c = '\x7b' || c = '\x7d'

/-- A plain scalar up to a blank or its end. -/
def plainWord (flow : Bool) : (fuel : Nat) → Walk (List Char)
  | 0 => failure
  | fuel + 1 => do
    match ← peek with
    | none => return []
    | some c =>
      if (isSpace c || isBreak c) || (flow && isFlowMark c) then return []
      if c = ':' then
        if ← endsWordAt 1 then return []
        ensure !(flow && (← peekAt 1).any fun d => d = '?' || isFlowMark d)
      skip 1
      return c :: (← plainWord flow fuel)

/-- A plain scalar, and whether it ended behind a line end.  `joint` stands between the part taken
so far and the next one; a line left of column `indent` ends it. -/
def plainFrom (flow : Bool) (indent : Nat) : (fuel : Nat) → (joint : List Char) →
    (crossed : Bool) → Walk (List Char × Bool)
  | 0, _, _ => failure
  | fuel + 1, joint, crossed => do
    if (← atMarker) || (← sees '#') then return ([], crossed)
    let word ← plainWord flow (← fuelLeft)
    if word = [] then return ([], crossed)
    let (joint', crossed') ← gap indent (← fuelLeft) [] none []
    if joint' = [] || (!flow && (← get).column < indent) then return (joint ++ word, crossed')
    let (more, crossed) ← plainFrom flow indent fuel joint' crossed'
    return (joint ++ word ++ more, crossed)

/-- A plain scalar, and whether it ended behind a line end. -/
def plain (flow : Bool) (indent : Nat) : Walk (String × Bool) := do
  let (cs, crossed) ← plainFrom flow indent (← fuelLeft) [] false
  return (String.ofList cs, crossed)

/-! ## Quotes -/

/-- The character with this number in so many hexadecimal digits. -/
def numbered (width : Nat) : Walk Char := do
  let digits := (← get).rest.take width
  ensure (digits.length == width)
  match Text.readDigits? 16 digits with
  | some n =>
    ensure (n < 0xD800 || (0xE000 ≤ n && n < 0x110000))
    skip width
    return Char.ofNat n
  | none => failure

/-- The character behind a backslash. -/
def escaped : Walk Char := do
  match ← next with
  | '0' => return '\x00'
  | 'a' => return '\x07'
  | 'b' => return '\x08'
  | 't' | '\t' => return '\t'
  | 'n' => return '\n'
  | 'v' => return '\x0b'
  | 'f' => return '\x0c'
  | 'r' => return '\r'
  | 'e' => return '\x1b'
  | ' ' => return ' '
  | '\x22' => return '\x22'
  | '/' => return '/'
  | '\\' => return '\\'
  | 'N' => return '\u0085'
  | '_' => return '\u00a0'
  | 'L' => return '\u2028'
  | 'P' => return '\u2029'
  | 'x' => numbered 2
  | 'u' => numbered 4
  | 'U' => numbered 8
  | _ => failure

/-- A part of a quoted scalar up to white space or its quote, and whether an escaped line end ended
it. -/
def quotedWord (quote : Char) : (fuel : Nat) → Walk (List Char × Bool)
  | 0 => failure
  | fuel + 1 => do
    match ← peek with
    | none => return ([], false)
    | some c =>
      if isSpace c || isBreak c then return ([], false)
      let add (c : Char) : Walk (List Char × Bool) := do
        let (cs, broken) ← quotedWord quote fuel
        return (c :: cs, broken)
      if c = quote then
        if quote = '\'' && (← peekAt 1) == some quote then
          skip 2
          add c
        else return ([], false)
      else if quote = '\x22' && c = '\\' then
        skip 1
        if ← atBreak then
          let _ ← lineEnd
          return ([], true)
        else add (← escaped)
      else
        skip 1
        add c

/-- The rest of a quoted scalar behind its opening quote. -/
def quotedRest (quote : Char) : (fuel : Nat) → Walk (List Char)
  | 0 => failure
  | fuel + 1 => do
    ensure !((← atMarker) || (← atEnd))
    let (word, broken) ← quotedWord quote (← fuelLeft)
    if ← accept quote then return word
    let (joint, _) ← gap 0 (← fuelLeft) [] (if broken then some [] else none) []
    return word ++ joint ++ (← quotedRest quote fuel)

/-- A quoted scalar. -/
def quoted (quote : Char) : Walk String := do
  ensure (← accept quote)
  return String.ofList (← quotedRest quote (← fuelLeft))

/-! ## Literal and folded scalars -/

/-- What becomes of the line ends behind the last line. -/
inductive Chomping where
  | clip | strip | keep
  deriving DecidableEq

/-- Takes a sign that chooses the chomping. -/
def chomping : Walk (Option Chomping) := do
  if ← accept '+' then return some .keep
  else if ← accept '-' then return some .strip
  else return none

/-- Takes a digit that gives the indentation. -/
def indentation : Walk (Option Nat) := do
  match ← peek with
  | some c =>
    if Text.isDecimalDigit c then
      ensure (c != '0')
      skip 1
      return some (c.toNat - '0'.toNat)
    else return none
  | none => return none

/-- Chomping and indentation, in any order. -/
def blockHeader : Walk (Chomping × Option Nat) := do
  let before ← chomping
  let indent ← indentation
  let after ← if before.isNone && indent.isSome then chomping else pure none
  finishLine
  return ((before.orElse fun _ => after).getD .clip, indent)

/-- Takes blank lines and the indentation of the line behind them; gives the line ends and the
deepest column reached.  Without an indentation known, all spaces belong to it. -/
def blankLines (indent : Option Nat) : (fuel : Nat) → (deepest : Nat) → Walk (List Char × Nat)
  | 0, _ => failure
  | fuel + 1, deepest => do
    let here ← get
    let room := match indent with
      | some n => n - here.column
      | none => here.rest.length
    skip ((here.rest.take room).takeWhile (· = ' ')).length
    let column := (← get).column
    ensure !((← sees '\t') && indent.all (column < ·))
    let deepest := max deepest column
    if ← atBreak then
      let cs ← lineEnd
      let (more, deepest) ← blankLines indent fuel deepest
      return (cs ++ more, deepest)
    else return ([], deepest)

/-- The lines of a scalar at column `indent`: its text, the last line end, and the line ends
behind. `first` and `later` are the line ends before the line at hand, and `more` says whether the
line before starts with a blank. -/
def blockLines (literal : Bool) (indent : Nat) : (fuel : Nat) → (first later : List Char) →
    (more : Bool) → Walk (List Char × List Char × List Char)
  | 0, _, _, _ => failure
  | fuel + 1, first, later, more => do
    if (← get).column = indent && !(← atEnd) then
      let deeper := (← peek).any isSpace
      let joint :=
        if !literal && first == ['\n'] && !more && !deeper then
          if later = [] then [' '] else []
        else first
      let line ← takeWhile fun _ => true
      let first ← lineEnd
      let (next, _) ← blankLines (some indent) (← fuelLeft) 0
      let (cs, tail) ← blockLines literal indent fuel first next deeper
      return (joint ++ later ++ line ++ cs, tail)
    else return ([], first, later)

/-- A literal or folded scalar behind its mark.  Without an indentation in the header the first line
sets it, to column `least` or more. -/
def block (literal : Bool) (least : Nat) : Walk String := do
  let (chomping, indent?) ← blockHeader
  let given := indent?.map fun n => if least = 0 then n else least - 1 + n
  let (later, deepest) ← blankLines given (← fuelLeft) 0
  let indent := given.getD (max (max deepest least) 1)
  let (cs, last, behind) ← blockLines literal indent (← fuelLeft) [] later false
  return String.ofList <| match chomping with
    | .strip => cs
    | .clip => cs ++ last
    | .keep => cs ++ last ++ behind

end Palmtop.Settings.Yaml
