import Palmtop.Settings.Format.Yaml.Token

/-! # YAML documents

The tokens of a text form at most one document: a node, in front of it directives, and marks around
it. A node is a scalar, a list, a table, or the name of an earlier node.

As settings a node counts only if it has no tag of its own making, if its keys are scalars and if
it nests at most 128 deep.  A key is the text of its scalar, whatever that text stands for; of two
equal keys the later counts.

Names of nodes within named nodes can make a short text stand for an endless one, so a document is
refused if writing it out would look up more than a hundred names for each of its marks: one for a
scalar or a name, two for a list or table.
-/
namespace Palmtop.Settings.Yaml

/-! ## Nodes -/

/-- A node with the tag it was given. -/
inductive Node where
  | scalar (tag : Option String) (plain : Bool) (text : String)
  | list (tag : Option String) (items : List Node)
  | table (tag : Option String) (fields : List (Node × Node))

namespace Node

/-- Where nothing is written. -/
def empty : Node := .scalar none true ""

/-- The marks that make up a node by itself. -/
def marks : Node → Nat
  | .scalar .. => 1
  | .list .. | .table .. => 2

/-- The text of a scalar. -/
def text? : Node → Option String
  | .scalar _ _ text => some text
  | _ => none

end Node

/-- A tag of the format itself. -/
def coreTag (name : String) : String := "tag:yaml.org,2002:" ++ name

/-- Whether a tag means something only to whoever wrote it. -/
def isLocalTag (tag : Option String) : Bool := tag.any (·.toList.head? == some '!')

/-- What a scalar stands for. -/
def scalarValue? (tag : Option String) (plain : Bool) (text : String) : Option Value :=
  if isLocalTag tag then none
  else match tag with
    | none => some (if plain then resolve text else .text text)
    | some tag =>
      if tag = coreTag "bool" then (bool? text).map .bool
      else if tag = coreTag "int" then int? text.toList
      else if tag = coreTag "float" then float? text.toList
      else if tag = coreTag "null" then if isNull text then some .null else none
      else some (.text text)

mutual

/-- The value of a node that nests at most `depth` deep. -/
def Node.value? (depth : Nat) : Node → Option Value
  | .scalar tag plain text => scalarValue? tag plain text
  | .list tag items =>
    if depth = 0 ∨ isLocalTag tag then none else (values? (depth - 1) items).map .list
  | .table tag fields =>
    if depth = 0 ∨ isLocalTag tag then none
    else (fields? (depth - 1) fields).map fun l => .table (Fields.ofList l)

/-- The values of nodes. -/
def values? (depth : Nat) : List Node → Option (List Value)
  | [] => some []
  | item :: rest =>
    match item.value? depth, values? depth rest with
    | some v, some vs => some (v :: vs)
    | _, _ => none

/-- Keys and values. -/
def fields? (depth : Nat) : List (Node × Node) → Option (List (String × Value))
  | [] => some []
  | (key, item) :: rest =>
    match key.text?, item.value? depth, fields? depth rest with
    | some k, some v, some l => some ((k, v) :: l)
    | _, _, _ => none

end

/-- How deep a document may nest. -/
def maxDepth : Nat := 128

/-- The fields of the table that a document consists of; an empty document is an empty table. -/
def Node.fields? : Node → Option Fields
  | .scalar _ plain text => if plain && text.isEmpty then some [] else none
  | .list .. => none
  | .table _ fields => (Yaml.fields? (maxDepth - 1) fields).map Fields.ofList

/-! ## Reading nodes -/

/-- Tokens in the course of being read. -/
structure Draft where
  tokens : List Token
  /-- Named nodes with the look-ups it takes to write them out, the last one first; nothing stands
  for one that is not complete. -/
  anchors : List (String × Option (Node × Nat)) := []
  /-- The look-ups it takes to write out what has been read. -/
  lookups : Nat := 0
  /-- The marks read. -/
  marks : Nat := 0
  /-- What handles in tags are short for. -/
  handles : List (String × String) := []
  /-- Whether the version has been declared. -/
  versioned : Bool := false

/-- Reads something off the front of the tokens, or fails. -/
abbrev Reading := StateT Draft Option

namespace Reading

/-- The next token. -/
def peek : Reading (Option Token) := return (← get).tokens.head?

/-- Takes a token. -/
def skip : Reading Unit := modify fun d => { d with tokens := d.tokens.tail }

/-- Takes `t` if it comes next. -/
def accept (t : Token) : Reading Bool := do
  if (← peek) == some t then
    skip
    return true
  else return false

/-- Takes `t`, which has to come next. -/
def expect (t : Token) : Reading Unit := do
  if !(← accept t) then failure

/-- Whether one of these tokens comes next, or none at all. -/
def stopsAt (l : List Token) : Reading Bool := return (← peek).all (l.contains ·)

/-- A tag in full. -/
def fullTag (handle suffix : String) : Reading String := do
  if handle = "" then return suffix
  let known := (← get).handles ++ [("!", "!"), ("!!", coreTag "")]
  match known.lookup handle with
  | some full => return full ++ suffix
  | none => failure

/-- The name of an anchor, if one comes next. -/
def anchor? : Reading (Option String) := do
  match ← peek with
  | some (.anchor name) => skip; return some name
  | _ => return none

/-- A tag, if one comes next. -/
def tag? : Reading (Option String) := do
  match ← peek with
  | some (.tag handle suffix) => skip; return some (← fullTag handle suffix)
  | _ => return none

/-- Anchor and tag in front of a node, in any order. -/
def properties : Reading (Option String × Option String) := do
  match ← anchor? with
  | some name => return (some name, ← tag?)
  | none =>
    let tag ← tag?
    return (← anchor?, tag)

/-- Names a node, or says that a node of that name has begun. -/
def define (name : Option String) (node : Option (Node × Nat)) : Reading Unit :=
  match name with
  | some name => modify fun d => { d with anchors := (name, node) :: d.anchors }
  | none => pure ()

/-- Counts marks. -/
def count (n : Nat) : Reading Unit := modify fun d => { d with marks := d.marks + n }

/-- The complete node of a name. -/
def lookup (name : String) : Reading Node := do
  match (← get).anchors.lookup name with
  | some (some (node, lookups)) =>
    modify fun d => { d with lookups := d.lookups + lookups + 1 }
    return node
  | _ => failure

/-- What is there where nothing is written. -/
def nothing : Reading Node := do
  count 1
  return .empty

/-- Tokens that end an item without indentation of its own. -/
def itemStops : List Token := [.item, .key, .value, .blockEnd]

mutual

/-- A node.  `block` says whether indentation may hold it together, and `bare` whether it may be a
list no further right than what it belongs to. -/
def node : (fuel : Nat) → (block bare : Bool) → Reading Node
  | 0, _, _ => failure
  | fuel + 1, block, bare => do
    if let some (.alias name) ← peek then
      skip
      count 1
      return ← lookup name
    let (name, tag) ← properties
    define name none
    let before := (← get).lookups
    let node ← content fuel block bare tag (name.isSome || tag.isSome)
    count node.marks
    define name (some (node, (← get).lookups - before))
    return node

/-- A node behind its anchor and tag, of which `marked` says whether it has any. -/
def content : (fuel : Nat) → (block bare : Bool) → (tag : Option String) → (marked : Bool) →
    Reading Node
  | 0, _, _, _, _ => failure
  | fuel + 1, block, bare, tag, marked => do
    match ← peek with
    | some (.scalar plain text) =>
      skip
      return .scalar (tag.filter (· != "!")) plain text
    | some .flowListStart => skip; return .list tag (← flowItems fuel true)
    | some .flowTableStart => skip; return .table tag (← flowFields fuel true)
    | some .item =>
      if bare then return .list tag (← bareItems fuel)
      else if marked then return .scalar tag true ""
      else failure
    | some .listStart =>
      if block then
        skip
        return .list tag (← items fuel)
      else if marked then return .scalar tag true ""
      else failure
    | some .tableStart =>
      if block then
        skip
        return .table tag (← fields fuel)
      else if marked then return .scalar tag true ""
      else failure
    | _ => if marked then return .scalar tag true "" else failure

/-- A node unless one of the tokens `stops` shows that nothing is written. -/
def optional : (fuel : Nat) → (stops : List Token) → (block bare : Bool) → Reading Node
  | 0, _, _, _ => failure
  | fuel + 1, stops, block, bare => do
    if ← stopsAt stops then nothing else node fuel block bare

/-- The items of an indented list up to its end. -/
def items : (fuel : Nat) → Reading (List Node)
  | 0 => failure
  | fuel + 1 => do
    if ← accept .blockEnd then return []
    expect .item
    return (← optional fuel [.item, .blockEnd] true false) :: (← items fuel)

/-- The items of a list without indentation of its own. -/
def bareItems : (fuel : Nat) → Reading (List Node)
  | 0 => failure
  | fuel + 1 => do
    if ← accept .item then
      return (← optional fuel itemStops true false) :: (← bareItems fuel)
    else return []

/-- The value of a field held together by indentation. -/
def blockValue : (fuel : Nat) → Reading Node
  | 0 => failure
  | fuel + 1 => do
    if ← accept .value then optional fuel [.key, .value, .blockEnd] true true else nothing

/-- The fields of an indented table up to its end. -/
def fields : (fuel : Nat) → Reading (List (Node × Node))
  | 0 => failure
  | fuel + 1 => do
    if ← accept .blockEnd then return []
    expect .key
    let key ← optional fuel [.key, .value, .blockEnd] true true
    let item ← blockValue fuel
    return (key, item) :: (← fields fuel)

/-- The value of a field in brackets that `close` ends. -/
def flowValue : (fuel : Nat) → (close : Token) → Reading Node
  | 0, _ => failure
  | fuel + 1, close => do
    if ← accept .value then optional fuel [.comma, close] false false else nothing

/-- An item of a list in brackets: a node, or a table of one field. -/
def flowItem : (fuel : Nat) → Reading Node
  | 0 => failure
  | fuel + 1 => do
    if ← accept .key then
      let key ← optional fuel [.value, .comma, .flowListEnd] false false
      count 2
      return .table none [(key, ← flowValue fuel .flowListEnd)]
    else node fuel false false

/-- The items of a list in brackets up to its end. -/
def flowItems : (fuel : Nat) → (first : Bool) → Reading (List Node)
  | 0, _ => failure
  | fuel + 1, first => do
    if ← accept .flowListEnd then return []
    if !first then
      expect .comma
      if ← accept .flowListEnd then return []
    return (← flowItem fuel) :: (← flowItems fuel false)

/-- A field in brackets. -/
def flowField : (fuel : Nat) → Reading (Node × Node)
  | 0 => failure
  | fuel + 1 => do
    if ← accept .key then
      let key ← optional fuel [.value, .comma, .flowTableEnd] false false
      return (key, ← flowValue fuel .flowTableEnd)
    else return (← node fuel false false, ← nothing)

/-- The fields of a table in brackets up to its end. -/
def flowFields : (fuel : Nat) → (first : Bool) → Reading (List (Node × Node))
  | 0, _ => failure
  | fuel + 1, first => do
    if ← accept .flowTableEnd then return []
    if !first then
      expect .comma
      if ← accept .flowTableEnd then return []
    return (← flowField fuel) :: (← flowFields fuel false)

end

/-- The directives in front of a document. -/
def directives : (fuel : Nat) → Reading Unit
  | 0 => failure
  | fuel + 1 => do
    match ← peek with
    | some (.version major minor) =>
      if (← get).versioned || major != 1 || (minor != 1 && minor != 2) then failure
      skip
      modify ({ · with versioned := true })
      directives fuel
    | some (.handle handle full) =>
      if ((← get).handles.lookup handle).isSome then failure
      skip
      modify fun d => { d with handles := (handle, full) :: d.handles }
      directives fuel
    | _ => pure ()

/-- The node of a document behind its start. -/
def root (fuel : Nat) : Reading Node := do
  match ← peek with
  | none | some (.version ..) | some (.handle ..) | some .documentStart | some .documentEnd =>
    return .empty
  | _ => node fuel true false

/-- The node of the one document.  Nothing but marks of its end may come behind it. -/
def document : Reading Node := do
  let fuel := 4 * (← get).tokens.length + 4
  let n ← match ← peek with
    | none => pure .empty
    | some (.version ..) | some (.handle ..) | some .documentStart =>
      directives fuel
      expect .documentStart
      root fuel
    | _ => node fuel true false
  let d ← get
  if d.tokens.all (· == .documentEnd) && d.lookups ≤ 100 * d.marks then return n else failure

end Reading

/-- The fields of the table a text holds. -/
def parse? (text : String) : Option Fields := do
  let tokens ← tokens? text
  let (root, _) ← Reading.document { tokens }
  root.fields?

end Palmtop.Settings.Yaml
