import Palmtop.Text.Quoted

/-! # Values shown for diagnosis

A value is shown on one line by the name of its variant followed by its parts: `Name`,
`Name(part, part)` or `Name { field: part, field: part }`; a trailing `..` says that fields are left
out.  Text parts are quoted.
-/
namespace Palmtop.Text

/-- A value as it is shown for diagnosis. -/
inductive Shown where
  | number (n : Nat)
  | truth (b : Bool)
  | text (s : String)
  | word (name : String)
  | tuple (name : String) (parts : List Shown)
  | block (name : String) (fields : List (String × Shown)) (partly : Bool)

/-- The name of a value's variant, if it has one. -/
def Shown.name : Shown → String
  | .number _ | .truth _ | .text _ => ""
  | .word name | .tuple name _ | .block name _ _ => name

mutual

/-- The line that shows a value. -/
def Shown.render : Shown → String
  | .number n => toString n
  | .truth b => if b then "true" else "false"
  | .text s => quoted s
  | .word name => name
  | .tuple name parts => name ++ "(" ++ ", ".intercalate (renderParts parts) ++ ")"
  | .block name fields partly =>
    let shown := renderFields fields ++ (if partly then [".."] else [])
    name ++ " \x7b " ++ ", ".intercalate shown ++ " \x7d"

/-- The parts of a tuple, each on its own. -/
def Shown.renderParts : List Shown → List String
  | [] => []
  | part :: rest => part.render :: renderParts rest

/-- The fields of a block, each with its name. -/
def Shown.renderFields : List (String × Shown) → List String
  | [] => []
  | (name, part) :: rest => (name ++ ": " ++ part.render) :: renderFields rest

end

end Palmtop.Text
