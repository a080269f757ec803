import Palmtop.Settings.Format.Toml.Scalar

/-! # TOML documents

A document is a list of lines: key and value, the header of a table, or the header of one more
table of an array.  Keys may be dotted.  What makes a document wrong is mostly that something is
defined twice, so a table under construction remembers how it came to be:

* a table that a header passes through can still be defined by a header of its own, once;
* a table that dotted keys made can only be extended by dotted keys of the same table;
* a value, and thus a table or array written in one place, is closed.

Arrays and tables written in one place nest at most 79 deep.
-/
namespace Palmtop.Settings.Toml

open Scan

/-! ## Tables under construction -/

/-- How a table came to be. -/
inductive Origin where
  /-- A header passed through it. -/
  | implied
  /-- It has a header of its own, or is an item of an array. -/
  | header
  /-- Dotted keys made it. -/
  | dotted
  deriving DecidableEq

/-- A part of a document under construction. -/
inductive Node where
  | leaf (value : Value)
  | table (origin : Origin) (fields : List (String × Node))
  /-- An array of tables; the last one is open. -/
  | tables (closed : List (List (String × Node))) (last : List (String × Node))

/-- The fields of a table under construction. -/
abbrev Nodes := List (String × Node)

namespace Nodes

/-- The node at a key. -/
def get? (fields : Nodes) (key : String) : Option Node := fields.lookup key

/-- The fields with another node at a key. -/
def put (key : String) (node : Node) (fields : Nodes) : Nodes :=
  (key, node) :: fields.filter fun p => p.1 != key

/-- Changes the fields of the table a header names, making the tables on the way. -/
def changeAt (change : Nodes → Option Nodes) : List String → Nodes → Option Nodes
  | [], fields => change fields
  | key :: path, fields =>
    match get? fields key with
    | none => (changeAt change path []).map fun sub => put key (.table .implied sub) fields
    | some (.table origin sub) =>
      (changeAt change path sub).map fun sub => put key (.table origin sub) fields
    | some (.tables closed last) =>
      (changeAt change path last).map fun last => put key (.tables closed last) fields
    | some (.leaf _) => none

/-- Defines the table `key`. -/
def define (key : String) (fields : Nodes) : Option Nodes :=
  match get? fields key with
  | none => some (put key (.table .header []) fields)
  | some (.table .implied sub) => some (put key (.table .header sub) fields)
  | some _ => none

/-- Adds a table to the array `key`. -/
def append (key : String) (fields : Nodes) : Option Nodes :=
  match get? fields key with
  | none => some (put key (.tables [] []) fields)
  | some (.tables closed last) => some (put key (.tables (closed ++ [last]) []) fields)
  | some _ => none

/-- Sets a value under a dotted key.  `open'` says whether the fields at hand may take the last
key. -/
def assign (value : Value) (open' : Bool) : List String → Nodes → Option Nodes
  | [], _ => none
  | [key], fields =>
    if open' && (get? fields key).isNone then some (put key (.leaf value) fields) else none
  | key :: path, fields =>
    match get? fields key with
    | none => (assign value true path []).map fun sub => put key (.table .dotted sub) fields
    | some (.table .dotted sub) =>
      (assign value true path sub).map fun sub => put key (.table .dotted sub) fields
    | some (.table .implied sub) =>
      (assign value false path sub).map fun sub => put key (.table .implied sub) fields
    | some (.tables closed last) =>
      (assign value false path last).map fun last => put key (.tables closed last) fields
    | some (.table .header _) | some (.leaf _) => none

end Nodes

mutual

/-- The value of a finished node. -/
def Node.value : Node → Value
  | .leaf v => v
  | .table _ fields => .table (finished fields)
  | .tables closed last => .list (finishedAll closed ++ [.table (finished last)])

/-- The fields of a finished table. -/
def finished : List (String × Node) → Fields
  | [] => []
  | (key, node) :: rest => Fields.put key node.value (finished rest)

/-- Finished tables. -/
def finishedAll : List (List (String × Node)) → List Value
  | [] => []
  | fields :: rest => .table (finished fields) :: finishedAll rest

end

/-! ## Lines -/

/-- A character of a key without quotes. -/
def isKeyChar (c : Char) : Bool := c.isAlphanum || c = '_' || c = '-'

/-- A key without dots. -/
def simpleKey : Scan String := do
  match ← peek with
  | some '\x22' =>
    expect '\x22'
    return String.ofList (← lineString '\x22' true ((← rest).length + 1))
  | some '\'' =>
    expect '\''
    return String.ofList (← lineString '\'' false ((← rest).length + 1))
  | _ =>
    let cs ← Scan.takeWhile isKeyChar
    ensure (cs != [])
    return String.ofList cs

/-- A dotted key, with the blanks around it. -/
def dottedKey : (fuel : Nat) → Scan (List String)
  | 0 => failure
  | fuel + 1 => do
    skipWhile isSpace
    let key ← simpleKey
    skipWhile isSpace
    if ← accept '.' then return key :: (← dottedKey fuel) else return [key]

/-- A comment, if there is one, up to the end of its line. -/
def comment : Scan Unit := do
  if ← accept '#' then
    let cs ← Scan.takeWhile (· != '\n')
    ensure (cs.all isShown)

/-- Blanks, comments and line ends. -/
def gap : (fuel : Nat) → Scan Unit
  | 0 => pure ()
  | fuel + 1 => do
    skipWhile isSpace
    comment
    if ← accept '\n' then gap fuel

mutual

/-- A value. -/
def value : (fuel depth : Nat) → Scan Value
  | 0, _ => failure
  | fuel + 1, depth => do
    if ← accept '[' then
      ensure (0 < depth)
      return .list (← items fuel (depth - 1))
    else if ← accept '\x7b' then
      ensure (0 < depth)
      skipWhile isSpace
      if ← accept '\x7d' then return .table []
      else return .table (finished (← members fuel (depth - 1) []))
    else scalar

/-- The items of an array up to its end. -/
def items : (fuel depth : Nat) → Scan (List Value)
  | 0, _ => failure
  | fuel + 1, depth => do
    gap fuel
    if ← accept ']' then return []
    let item ← value fuel depth
    gap fuel
    if ← accept ',' then return item :: (← items fuel depth)
    expect ']'
    return [item]

/-- The members of a table on one line up to its end, at least one. -/
def members : (fuel depth : Nat) → Nodes → Scan Nodes
  | 0, _, _ => failure
  | fuel + 1, depth, fields => do
    let key ← dottedKey fuel
    expect '='
    skipWhile isSpace
    let item ← value fuel depth
    skipWhile isSpace
    let fields ← ofOption (fields.assign item true key)
    if ← accept ',' then members fuel depth fields
    else
      expect '\x7d'
      return fields

end

/-- A document under construction and the table its lines go to. -/
structure Draft where
  root : Nodes := []
  path : List String := []

/-- How deep values may nest. -/
def maxDepth : Nat := 79

/-- One line without what is behind it. -/
def line (fuel : Nat) (d : Draft) : Scan Draft := do
  if ← acceptAll ['[', '['] then
    let key ← dottedKey fuel
    expect ']'
    expect ']'
    let root ← ofOption (d.root.changeAt (Nodes.append (key.getLastD "")) key.dropLast)
    return { root, path := key }
  else if ← accept '[' then
    let key ← dottedKey fuel
    expect ']'
    let root ← ofOption (d.root.changeAt (Nodes.define (key.getLastD "")) key.dropLast)
    return { root, path := key }
  else
    let key ← dottedKey fuel
    expect '='
    skipWhile isSpace
    let item ← value fuel maxDepth
    let root ← ofOption (d.root.changeAt (Nodes.assign item true key) d.path)
    return { d with root }

/-- The lines up to the end of the text. -/
def lines : (fuel : Nat) → Draft → Scan Draft
  | 0, _ => failure
  | fuel + 1, d => do
    skipWhile isSpace
    let d ← match ← peek with
      | none | some '#' | some '\n' => pure d
      | _ => line fuel d
    skipWhile isSpace
    comment
    if ← atEnd then return d
    expect '\n'
    lines fuel d

/-- The text with single line feeds at line ends, and without a byte order mark. -/
def normalized : List Char → List Char
  | '\r' :: '\n' :: cs => '\n' :: normalized cs
  | c :: cs => c :: normalized cs
  | [] => []

/-- The fields of the document a text holds. -/
def parse? (text : String) : Option Fields :=
  let cs := match text.toList with
    | '\uFEFF' :: cs => normalized cs
    | cs => normalized cs
  (runAll (lines (2 * cs.length + 2) {}) (String.ofList cs)).map fun d => finished d.root

end Palmtop.Settings.Toml
