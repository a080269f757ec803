/-! # Places in a YAML text

In YAML the column where something stands decides what it belongs to, so walking through a text
keeps count of columns, lines and characters.
-/
namespace Palmtop.Settings.Yaml

/-- A line end. -/
def isBreak (c : Char) : Bool :=
  c = '\n' || c = '\r' || c = '\u0085' || c = '\u2028' || c = '\u2029'

/-- A blank within a line. -/
def isSpace (c : Char) : Bool := c = ' ' || c = '\t'

/-- A character that may stand in a text at all. -/
def isAllowed (c : Char) : Bool :=
  c = '\t' || c = '\n' || c = '\r' || (0x20 ≤ c.toNat && c.toNat ≤ 0x7E) || c.toNat = 0x85 ||
    (0xA0 ≤ c.toNat && c.toNat != 0xFFFE && c.toNat != 0xFFFF)

/-- A place in a text: what is left, and where that starts. -/
structure Cursor where
  rest : List Char
  line : Nat := 0
  column : Nat := 0
  /-- How many characters come before. -/
  offset : Nat := 0

/-- A walk through a text that gives an `α` or fails. -/
abbrev Walk := StateT Cursor Option

namespace Walk

/-- Fails unless `b` holds. -/
def ensure (b : Bool) : Walk Unit := if b then pure () else failure

/-- The character so many places ahead. -/
def peekAt (n : Nat) : Walk (Option Char) := return (← get).rest[n]?

/-- The next character. -/
def peek : Walk (Option Char) := peekAt 0

/-- Whether `c` comes next. -/
def sees (c : Char) : Walk Bool := return (← peek) == some c

/-- Whether a blank, a line end or the end of the text comes so many places ahead. -/
def endsWordAt (n : Nat) : Walk Bool := return (← peekAt n).all fun c => isSpace c || isBreak c

/-- Takes a character, which is no line end. -/
def next : Walk Char := do
  match ← get with
  | ⟨c :: rest, line, column, offset⟩ =>
    set ({ rest, line, column := column + 1, offset := offset + 1 } : Cursor)
    return c
  | _ => failure

/-- Takes so many characters. -/
def skip : (n : Nat) → Walk Unit
  | 0 => pure ()
  | n + 1 => do
    let _ ← next
    skip n

/-- Takes `c` if it comes next. -/
def accept (c : Char) : Walk Bool := do
  if ← sees c then
    skip 1
    return true
  else return false

/-- Takes characters of a line as long as `p` holds of them. -/
def takeWhile (p : Char → Bool) : Walk (List Char) := do
  let cs := (← get).rest.takeWhile fun c => p c && !isBreak c
  skip cs.length
  return cs

/-- Takes blanks. -/
def skipSpaces : Walk Unit := do let _ ← takeWhile isSpace

/-- Takes a line end, if one comes next, and gives what it stands for: nearly always a line feed. -/
def lineEnd : Walk (List Char) := do
  let here ← get
  let newLine (n : Nat) (rest : List Char) : Walk Unit :=
    set ({ rest, line := here.line + 1, offset := here.offset + n } : Cursor)
  match here.rest with
  | '\r' :: '\n' :: rest => newLine 2 rest; return ['\n']
  | c :: rest =>
    if isBreak c then
      newLine 1 rest
      return if c = '\u2028' || c = '\u2029' then [c] else ['\n']
    else return []
  | [] => return []

/-- Whether a line end comes next. -/
def atBreak : Walk Bool := return (← peek).any isBreak

/-- Whether nothing is left. -/
def atEnd : Walk Bool := return (← peek).isNone

/-- Takes what is left of a line if it is blank or a comment. -/
def finishLine : Walk Unit := do
  skipSpaces
  if ← sees '#' then let _ ← takeWhile fun _ => true
  ensure ((← atEnd) || (← atBreak))
  let _ ← lineEnd

/-- Whether three of `c` stand at the start of a line and on their own. -/
def atMarkerOf (c : Char) : Walk Bool := do
  let here ← get
  return here.column == 0 && here.rest.take 3 == [c, c, c] && (← endsWordAt 3)

/-- Whether the text goes on with the start or the end of a document. -/
def atMarker : Walk Bool := return (← atMarkerOf '-') || (← atMarkerOf '.')

end Walk

end Palmtop.Settings.Yaml
