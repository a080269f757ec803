import Palmtop.Path

/-! # Files

The files a program works on, as a finite map from component lists to files and directories.  The
directory with no components is where relative paths start, and it is always there.  Only what can
be told apart later is kept: the content of files, and which directories exist.
-/
namespace Palmtop

/-- What a path can name. -/
inductive Node where
  | file (bytes : ByteArray)
  | directory

/-- Why a path could not be used. -/
inductive FileError where
  | notFound
  /-- Some other failure: a file where a directory is needed, or the other way round. -/
  | failed
  deriving DecidableEq

/-- The files and directories there are. -/
structure Files where
  nodes : List (List String × Node) := []

namespace Files

/-- Where a path starts: at the root or where relative paths start. -/
def start (p : Path) : List String := if p.isAbsolute then ["/"] else []

/-- The node at a component list. -/
def at? (fs : Files) (cs : List String) : Option Node :=
  if cs = [] ∨ cs = ["/"] then some .directory else fs.nodes.lookup cs

/-- The files with this node at a component list. -/
def set (fs : Files) (cs : List String) (node : Node) : Files :=
  ⟨(cs, node) :: fs.nodes.filter fun p => p.1 != cs⟩

/-- The files with nothing at a component list. -/
def erase (fs : Files) (cs : List String) : Files := ⟨fs.nodes.filter fun p => p.1 != cs⟩

/-- Follows components from a directory: each step but the last has to be a directory. -/
def resolveFrom (fs : Files) (base : List String) : List String → Except FileError (List String)
  | [] => .ok base
  | c :: rest =>
    match fs.at? base with
    | none => .error .notFound
    | some (.file _) => .error .failed
    | some .directory =>
      if c = ".." then fs.resolveFrom base.dropLast rest else fs.resolveFrom (base ++ [c]) rest

/-- The component list a path comes to, its parent being a directory. -/
def resolve (fs : Files) (p : Path) : Except FileError (List String) :=
  if p.text.isEmpty then .error .notFound
  else fs.resolveFrom (start p) p.components

/-- What a path names. -/
def node (fs : Files) (p : Path) : Except FileError Node :=
  match fs.resolve p with
  | .error e => .error e
  | .ok cs =>
    match fs.at? cs with
    | none => .error .notFound
    | some (.file bytes) => if p.endsWithSlash then .error .failed else .ok (.file bytes)
    | some .directory => .ok .directory

/-- Whether a path names anything. -/
def exists? (fs : Files) (p : Path) : Bool :=
  match fs.node p with
  | .ok _ => true
  | .error _ => false

/-- Makes every directory along components from a directory. -/
def makeFrom (fs : Files) (base : List String) : List String → Except FileError Files
  | [] => .ok fs
  | c :: rest =>
    if c = ".." then fs.makeFrom base.dropLast rest
    else match fs.at? (base ++ [c]) with
      | some (.file _) => .error .failed
      | some .directory => fs.makeFrom (base ++ [c]) rest
      | none => (fs.set (base ++ [c]) .directory).makeFrom (base ++ [c]) rest

/-- Makes every directory around a path. -/
def makeParents (fs : Files) (p : Path) : Except FileError Files :=
  fs.makeFrom (start p) p.components.dropLast

/-- Creates an empty file at a path, or empties the one there.  The directories around it have to
exist. -/
def create (fs : Files) (p : Path) : Except FileError (List String × Files) :=
  match fs.resolve p with
  | .error e => .error e
  | .ok cs =>
    match fs.at? cs with
    | some .directory => .error .failed
    | some (.file _) | none =>
      if p.endsWithSlash then .error .failed else .ok (cs, fs.set cs (.file .empty))

/-- Puts bytes into the file at a component list, if there still is one. -/
def store (fs : Files) (cs : List String) (bytes : ByteArray) : Files :=
  match fs.at? cs with
  | some (.file _) => fs.set cs (.file bytes)
  | _ => fs

/-- Creates a file with this content, and the directories around it. -/
def write (fs : Files) (p : Path) (bytes : ByteArray) : Except FileError Files :=
  match fs.makeParents p with
  | .error e => .error e
  | .ok fs =>
    match fs.create p with
    | .error e => .error e
    | .ok (cs, fs) => .ok (fs.store cs bytes)

/-- Removes the file at a path. -/
def remove (fs : Files) (p : Path) : Except FileError Files :=
  match fs.resolve p with
  | .error e => .error e
  | .ok cs =>
    match fs.at? cs with
    | some (.file _) => if p.endsWithSlash then .error .failed else .ok (fs.erase cs)
    | some .directory => .error .failed
    | none => .error .notFound

end Files

end Palmtop
