/-! # Scanning text

A scan takes characters off the front of a text and may fail.  A failure has no further cause: a
file of settings either can be read or cannot.
-/
namespace Palmtop.Settings

/-- A scan that gives an `α`. -/
abbrev Scan := StateT (List Char) Option

namespace Scan

variable {α : Type}

/-- What is left. -/
def rest : Scan (List Char) := get

/-- The next character, which stays. -/
def peek : Scan (Option Char) := return (← get).head?

/-- Whether nothing is left. -/
def atEnd : Scan Bool := return (← get).isEmpty

/-- Takes one character. -/
def next : Scan Char := do
  match ← get with
  | [] => failure
  | c :: cs => set cs; return c

/-- Takes one character if it is `c`. -/
def accept (c : Char) : Scan Bool := do
  match ← get with
  | d :: cs => if d = c then set cs; return true else return false
  | [] => return false

/-- Takes one character, which has to be `c`. -/
def expect (c : Char) : Scan Unit := do
  if !(← accept c) then failure

/-- Takes these characters if they come next. -/
def acceptAll (word : List Char) : Scan Bool := do
  let cs ← get
  if word.isPrefixOf cs then set (cs.drop word.length); return true else return false

/-- Takes characters as long as `p` holds of them. -/
def takeWhile (p : Char → Bool) : Scan (List Char) := do
  let cs ← get
  let front := cs.takeWhile p
  set (cs.drop front.length)
  return front

/-- Drops characters as long as `p` holds of them. -/
def skipWhile (p : Char → Bool) : Scan Unit := modify (·.dropWhile p)

/-- Takes exactly so many characters. -/
def take (n : Nat) : Scan (List Char) := do
  let cs ← get
  if cs.length < n then failure
  set (cs.drop n)
  return cs.take n

/-- Goes on only if `b` holds. -/
def ensure (b : Bool) : Scan Unit := if b then pure () else failure

/-- The value of an optional result. -/
def ofOption : Option α → Scan α
  | some a => pure a
  | none => failure

/-- The result of a scan that takes the whole text. -/
def runAll (s : Scan α) (text : String) : Option α :=
  match s text.toList with
  | some (a, []) => some a
  | _ => none

end Scan

end Palmtop.Settings
