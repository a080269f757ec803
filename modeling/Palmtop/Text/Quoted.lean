import Palmtop.Text.Blank
import Palmtop.Text.Digits
import Palmtop.Text.Printable

/-! # Quoted text

Text inside double quotes, in a form that shows every character: the quote, the backslash and the
usual controls behind a backslash, anything unprintable or combining by its number in braces, and
all else as it is.
-/
namespace Palmtop.Text

/-- Whether quoted text shows `c` as itself. -/
def isPlain (c : Char) : Bool :=
  !inRanges extendingRanges c.toNat && !inRanges unprintableRanges c.toNat

/-- The form of one character inside quotes. -/
def quotedChar (c : Char) : List Char :=
  match c with
  | '\x00' => ['\\', '0']
  | '\t' => ['\\', 't']
  | '\r' => ['\\', 'r']
  | '\n' => ['\\', 'n']
  | '\x22' => ['\\', '\x22']
  | '\\' => ['\\', '\\']
  | c =>
    if isPlain c then [c]
    else ['\\', 'u', '\x7b'] ++ Nat.toDigits 16 c.toNat ++ ['\x7d']

/-- `s` between double quotes, with every character made visible. -/
def quoted (s : String) : String :=
  String.ofList ('\x22' :: s.toList.flatMap quotedChar ++ ['\x22'])

end Palmtop.Text
