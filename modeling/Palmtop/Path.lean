import Palmtop.Text.Digits

/-! # File paths

A path is text with components between slashes; empty components and single dots do not count.  A
path names a file when its last component is a proper name, and the extension of that name is what
follows its last dot, unless the dot is the first character.
-/
namespace Palmtop

/-- A file path as it is written. -/
structure Path where
  text : String
  deriving DecidableEq

namespace Path

/-- The parts of `cs` between occurrences of `sep`. -/
def splitOnChar (sep : Char) : List Char → List (List Char)
  | [] => [[]]
  | c :: rest =>
    if c = sep then [] :: splitOnChar sep rest
    else match splitOnChar sep rest with
      | part :: parts => (c :: part) :: parts
      | [] => [[c]]

/-- The components that count. -/
def components (p : Path) : List String :=
  ((splitOnChar '/' p.text.toList).map String.ofList).filter fun c => c != "" && c != "."

/-- Whether the path starts at the root. -/
def isAbsolute (p : Path) : Bool := p.text.toList.head? == some '/'

/-- Whether the path is written with a slash at its end. -/
def endsWithSlash (p : Path) : Bool := p.text.toList.getLast? == some '/'

/-- The last component, if it is a proper name. -/
def fileName? (p : Path) : Option String := p.components.getLast?.filter (· != "..")

/-- A file name cut at its last dot; a dot in front does not count. -/
def splitExtension (name : List Char) : List Char × Option (List Char) :=
  let after := (name.reverse.takeWhile (· != '.')).reverse
  let stem := name.take (name.length - after.length - 1)
  if after.length = name.length ∨ stem = [] then (name, none) else (stem, some after)

/-- What follows the last dot of the file name. -/
def extension? (p : Path) : Option String :=
  p.fileName?.bind fun name => (splitExtension name.toList).2.map String.ofList

/-- Parts without the ones at their end that do not count; the first part always does. -/
def trimParts (parts : List (List Char)) : List (List Char) :=
  match parts with
  | [] => []
  | first :: rest =>
    first :: (rest.reverse.dropWhile fun part => part == [] || part == ['.']).reverse

/-- The directory of the last component, as it is written; empty if there is none. -/
def directory (p : Path) : Path :=
  match trimParts (trimParts (splitOnChar '/' p.text.toList)).dropLast with
  | [[]] => ⟨"/"⟩
  | parts => ⟨String.ofList ("/".toList.intercalate parts)⟩

/-- The path of `name` inside the directory `p`. -/
def join (p : Path) (name : String) : Path :=
  if p.text.isEmpty then ⟨name⟩
  else if p.endsWithSlash then ⟨p.text ++ name⟩
  else ⟨p.text ++ "/" ++ name⟩

end Path

end Palmtop
