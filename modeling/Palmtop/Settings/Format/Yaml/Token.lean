import Palmtop.Settings.Format.Yaml.Scalar

/-! # YAML tokens

A text is cut into tokens, and indentation is made explicit on the way: the first item of a
collection opens it, and whatever stands further left closes it.  That something is a key shows
only at the colon behind it, so the places where a key may have started are remembered, one for
each level of brackets; a key without question mark has to end on its line and within 1024
characters.
-/
namespace Palmtop.Settings.Yaml

open Walk

/-- A token. -/
inductive Token where
  | version (major minor : Nat)
  /-- What a handle in a tag is short for. -/
  | handle (handle full : String)
  | documentStart
  | documentEnd
  | listStart
  | tableStart
  /-- The end of a list or table that indentation holds together. -/
  | blockEnd
  | flowListStart
  | flowListEnd
  | flowTableStart
  | flowTableEnd
  | item
  | comma
  | key
  | value
  | alias (name : String)
  | anchor (name : String)
  | tag (handle suffix : String)
  | scalar (plain : Bool) (text : String)
  deriving DecidableEq

/-! ## Tokens by themselves -/

/-- A character of a name. -/
def isNameChar (c : Char) : Bool := c.isAlphanum || c = '_' || c = '-'

/-- A name, which is not empty. -/
def name : Walk String := do
  let cs ← takeWhile isNameChar
  ensure (cs != [])
  return String.ofList cs

/-- The name of an anchor. -/
def anchorName : Walk String := do
  let name ← name
  ensure ((← endsWordAt 0) || (← peek).any fun c =>
    c = '?' || c = ':' || c = ',' || c = ']' || c = '\x7d' || c = '%' || c = '@' || c = '\x60')
  return name

/-- A character of a tag. -/
def isTagChar (brackets : Bool) (c : Char) : Bool :=
  isNameChar c || c ∈ ";/?:@&=+$.!~*'()%".toList || (brackets && (c = ',' || c = '[' || c = ']'))

/-- The bytes that stand percent-encoded at the front. -/
def percentBytes : (fuel : Nat) → List Char → List UInt8
  | fuel + 1, '%' :: a :: b :: cs =>
    match Text.readDigits? 16 [a, b] with
    | some n => n.toUInt8 :: percentBytes fuel cs
    | none => []
  | _, _ => []

/-- The text with its percent-encoded characters decoded. -/
def decoded : (fuel : Nat) → List Char → Option (List Char)
  | 0, _ => none
  | _, [] => some []
  | fuel + 1, '%' :: cs =>
    let bytes := percentBytes fuel ('%' :: cs)
    let width := match bytes with
      | [] => 0
      | b :: _ => if b < 0x80 then 1 else if b < 0xE0 then 2 else if b < 0xF0 then 3 else 4
    match String.fromUTF8? ⟨(bytes.take width).toArray⟩ with
    | some s =>
      if s.isEmpty then none
      else (decoded fuel (cs.drop (3 * width - 1))).map (s.toList ++ ·)
    | none => none
  | fuel + 1, c :: cs => (decoded fuel cs).map (c :: ·)

/-- What comes behind the handle of a tag. -/
def tagText (brackets : Bool) : Walk String := do
  let cs ← takeWhile (isTagChar brackets)
  match decoded (cs.length + 1) cs with
  | some cs => return String.ofList cs
  | none => failure

/-- A handle: an exclamation mark, or a name between two of them; gives also whether it is closed.
-/
def tagHandle : Walk (String × Bool) := do
  ensure (← accept '!')
  let cs ← takeWhile isNameChar
  let closed ← accept '!'
  return (String.ofList ('!' :: cs ++ if closed then ['!'] else []), closed)

/-- A tag. -/
def tag (flow : Bool) : Walk Token := do
  let token ← match ← peekAt 1 with
    | some '<' =>
      skip 2
      let text ← tagText true
      ensure (text != "" && (← accept '>'))
      pure (.tag "" text)
    | _ =>
      let (handle, closed) ← tagHandle
      let text ← tagText false
      if closed then
        ensure (text != "")
        pure (.tag handle text)
      else
        let suffix := String.ofList (handle.toList.drop 1) ++ text
        pure (if suffix = "" then .tag "" "!" else .tag "!" suffix)
  ensure ((← endsWordAt 0) || (flow && (← sees ',')))
  return token

/-- A number of at most nine digits. -/
def smallNumber : Walk Nat := do
  let digits ← takeWhile Text.isDecimalDigit
  ensure (digits.length ≤ 9)
  match Text.readDigits? 10 digits with
  | some n => return n
  | none => failure

/-- A directive behind its percent sign. -/
def directive : Walk Token := do
  let name ← name
  ensure (← endsWordAt 0)
  skipSpaces
  let token ←
    if name = "YAML" then do
      let major ← smallNumber
      ensure (← accept '.')
      pure (.version major (← smallNumber))
    else if name = "TAG" then do
      let (handle, closed) ← tagHandle
      ensure (closed || handle == "!")
      ensure ((← peek).any isSpace)
      skipSpaces
      let full ← tagText true
      ensure (full != "" && (← endsWordAt 0))
      pure (.handle handle full)
    else failure
  finishLine
  return token

/-! ## Lexer -/

/-- A place where a key may have started. -/
structure KeyStart where
  /-- The number of tokens before it. -/
  position : Nat
  place : Cursor
  /-- Whether nothing else can stand there. -/
  required : Bool

/-- A text in the course of being cut. -/
structure Lexer where
  cursor : Cursor
  tokens : Array Token := #[]
  /-- The columns of the open collections that indentation holds together, innermost first. -/
  indents : List Nat := []
  /-- Whether a key may start here. -/
  keyAllowed : Bool := true
  /-- Where a key may have started, outside all brackets. -/
  outerKey : Option KeyStart := none
  /-- Where a key may have started within each open bracket, innermost first. -/
  innerKeys : List (Option KeyStart) := []

/-- A step of the lexer. -/
abbrev Lexing := StateT Lexer Option

namespace Lexer

/-- Whether a bracket is open. -/
def inFlow (l : Lexer) : Bool := !l.innerKeys.isEmpty

/-- Where a key may have started on the level at hand. -/
def keyStart (l : Lexer) : Option KeyStart := l.innerKeys.headD l.outerKey

/-- Sets where a key may have started on the level at hand. -/
def setKeyStart (k : Option KeyStart) (l : Lexer) : Lexer :=
  match l.innerKeys with
  | [] => { l with outerKey := k }
  | _ :: rest => { l with innerKeys := k :: rest }

/-- Where a collection inside the innermost one has to start at least. -/
def least (l : Lexer) : Nat := match l.indents with
  | [] => 0
  | n :: _ => n + 1

/-- Adds a token. -/
def add (t : Token) (l : Lexer) : Lexer := { l with tokens := l.tokens.push t }

/-- Opens a collection at `column`, unless one is open there or brackets rule indentation out. -/
def indentTo (column position : Nat) (t : Token) (l : Lexer) : Lexer :=
  if !l.inFlow && l.least ≤ column then
    { l with
      indents := column :: l.indents
      tokens := l.tokens.insertIdxIfInBounds position t }
  else l

/-- Closes the collections right of `column`; all of them if there is none. -/
def dedentTo (column : Option Nat) (l : Lexer) : Lexer :=
  if l.inFlow then l
  else
    let right := l.indents.takeWhile fun n => column.all (· < n)
    { l with
      indents := l.indents.drop right.length
      tokens := l.tokens ++ right.map fun _ => Token.blockEnd }

end Lexer

namespace Lexing

variable {α : Type}

/-- A walk as a step. -/
def walk (w : Walk α) : Lexing α := fun l =>
  (w l.cursor).map fun p => (p.1, { l with cursor := p.2 })

/-- Adds a token. -/
def add (t : Token) : Lexing Unit := modify (·.add t)

/-- Allows or forbids a key to start here. -/
def allowKey (b : Bool) : Lexing Unit := modify ({ · with keyAllowed := b })

/-- Gives up the key that may have started; fails if there has to be one. -/
def dropKey : Lexing Unit := do
  if (← get).keyStart.any (·.required) then failure
  modify (·.setKeyStart none)

/-- Remembers that a key may start here. -/
def startKey : Lexing Unit := do
  let l ← get
  if l.keyAllowed then
    dropKey
    let required := !l.inFlow && l.indents.head? == some l.cursor.column
    modify (·.setKeyStart (some ⟨l.tokens.size, l.cursor, required⟩))

/-- The key that started on this line and not too far away, if there is one. -/
def startedKey? : Lexing (Option KeyStart) := do
  let l ← get
  match l.keyStart with
  | some k =>
    if k.place.line = l.cursor.line ∧ l.cursor.offset ≤ k.place.offset + 1024 then return some k
    if k.required then failure
    return none
  | none => return none

/-- Takes blanks, comments and line ends up to the next token.  Tabs are blanks only where they
cannot be taken for indentation. -/
def skipGap : (fuel : Nat) → Lexing Unit
  | 0 => failure
  | fuel + 1 => do
    let tabs := (← get).inFlow || !(← get).keyAllowed
    let _ ← walk (takeWhile fun c => c = ' ' || (tabs && c = '\t'))
    if ← walk (sees '#') then let _ ← walk (takeWhile fun _ => true)
    if ← walk atBreak then
      let _ ← walk lineEnd
      if !(← get).inFlow then allowKey true
      skipGap fuel

/-- Takes the start or the end of a document. -/
def marker (t : Token) : Lexing Unit := do
  modify (·.dedentTo none)
  dropKey
  allowKey false
  walk (skip 3)
  add t

/-- Takes an opening bracket. -/
def openBracket (t : Token) : Lexing Unit := do
  startKey
  modify fun l => { l with innerKeys := none :: l.innerKeys }
  allowKey true
  walk (skip 1)
  add t

/-- Takes a closing bracket. -/
def closeBracket (t : Token) : Lexing Unit := do
  dropKey
  modify fun l => { l with innerKeys := l.innerKeys.tail }
  allowKey false
  walk (skip 1)
  add t

/-- Takes the mark in front of an item or of a key, which opens a collection. -/
def blockMark (collection mark : Token) : Lexing Unit := do
  let l ← get
  if !l.inFlow then
    if !l.keyAllowed then failure
    modify (·.indentTo l.cursor.column l.tokens.size collection)
  dropKey
  allowKey (!l.inFlow || mark == .item)
  walk (skip 1)
  add mark

/-- Takes the mark in front of a value, and marks the key in front of it. -/
def valueMark : Lexing Unit := do
  match ← startedKey? with
  | some k =>
    modify fun l => { l with tokens := l.tokens.insertIdxIfInBounds k.position .key }
    modify (·.indentTo k.place.column k.position .tableStart)
    modify (·.setKeyStart none)
    allowKey false
  | none =>
    let l ← get
    if !l.inFlow then
      if !l.keyAllowed then failure
      modify (·.indentTo l.cursor.column l.tokens.size .tableStart)
    allowKey !l.inFlow
  walk (skip 1)
  add .value

/-- Takes a token that a key may start with. -/
def node (w : Walk Token) : Lexing Unit := do
  startKey
  allowKey false
  add (← walk w)

/-- Takes a literal or folded scalar. -/
def blockScalar (literal : Bool) : Lexing Unit := do
  dropKey
  allowKey true
  walk (skip 1)
  add (.scalar false (← walk (block literal (← get).least)))

/-- Takes a plain scalar. -/
def plainScalar : Lexing Unit := do
  startKey
  allowKey false
  let l ← get
  let (text, crossed) ← walk (plain l.inFlow l.least)
  if crossed then allowKey true
  add (.scalar true text)

/-- Whether a plain scalar may start with `c`, of which `alone` says whether white space follows. -/
def startsPlain (flow alone : Bool) (c : Char) : Bool :=
  if c = '-' then !alone
  else if c = '?' || c = ':' then !flow && !alone
  else !isSpace c && !isFlowMark c && !(c ∈ "#&*!|>'\x22%@\x60".toList)

/-- Takes one token other than a directive or marker. -/
def token (c : Char) : Lexing Unit := do
  let flow := (← get).inFlow
  let alone ← walk (endsWordAt 1)
  match c with
  | '[' => openBracket .flowListStart
  | '\x7b' => openBracket .flowTableStart
  | ']' => closeBracket .flowListEnd
  | '\x7d' => closeBracket .flowTableEnd
  | ',' =>
    dropKey
    allowKey true
    walk (skip 1)
    add .comma
  | '*' => node do
    skip 1
    return .alias (← anchorName)
  | '&' => node do
    skip 1
    return .anchor (← anchorName)
  | '!' => node (tag flow)
  | '\'' | '\x22' => node do return .scalar false (← quoted c)
  | _ =>
    if c = '-' && alone then blockMark .listStart .item
    else if c = '?' && (flow || alone) then blockMark .tableStart .key
    else if c = ':' && (flow || alone) then valueMark
    else if c = '|' && !flow then blockScalar true
    else if c = '>' && !flow then blockScalar false
    else
      if !startsPlain flow alone c then failure
      plainScalar

/-- Takes all tokens up to the end of the text. -/
def all : (fuel : Nat) → Lexing Unit
  | 0 => failure
  | fuel + 1 => do
    skipGap (← walk fuelLeft)
    let column := (← get).cursor.column
    match ← walk peek with
    | none =>
      modify (·.dedentTo none)
      dropKey
    | some c =>
      modify (·.dedentTo (some column))
      if column = 0 && c = '%' then
        modify (·.dedentTo none)
        dropKey
        allowKey false
        walk (skip 1)
        add (← walk directive)
      else if ← walk (atMarkerOf '-') then marker .documentStart
      else if ← walk (atMarkerOf '.') then marker .documentEnd
      else token c
      all fuel

end Lexing

/-- The tokens of a text.  A byte order mark in front takes up a column. -/
def tokens? (text : String) : Option (List Token) :=
  let cs := text.toList
  if cs.all isAllowed then
    let cursor : Cursor := match cs with
      | '\uFEFF' :: cs => { rest := cs, column := 1, offset := 1 }
      | cs => { rest := cs }
    (Lexing.all (cs.length + 2) { cursor }).map fun p => p.2.tokens.toList
  else none

end Palmtop.Settings.Yaml
