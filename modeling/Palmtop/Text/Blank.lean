/-! # Blank text

The white-space characters of Unicode, and text that holds nothing else.  Trimming removes them at
both ends.
-/
namespace Palmtop.Text

/-- The ranges of the property White_Space. -/
def blankRanges : List (Nat × Nat) :=
  [(0x9, 0xD), (0x20, 0x20), (0x85, 0x85), (0xA0, 0xA0), (0x1680, 0x1680), (0x2000, 0x200A),
    (0x2028, 0x2029), (0x202F, 0x202F), (0x205F, 0x205F), (0x3000, 0x3000)]

/-- Whether a range of the list holds `n`. -/
def inRanges (ranges : List (Nat × Nat)) (n : Nat) : Bool :=
  ranges.any fun r => r.1 ≤ n && n ≤ r.2

/-- A white-space character. -/
def isBlankChar (c : Char) : Bool := inRanges blankRanges c.toNat

/-- Text without a visible character; the empty text is blank. -/
def isBlank (s : String) : Bool := s.toList.all isBlankChar

/-- `cs` without the blanks at both ends. -/
def trimBlank (cs : List Char) : List Char :=
  ((cs.dropWhile isBlankChar).reverse.dropWhile isBlankChar).reverse

end Palmtop.Text
