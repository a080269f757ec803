import Palmtop.Record

/-! # Entry names

A record is stored in an archive under `<database>/<unique id> <record type>`, the id in lower-case
hexadecimal with at least eight places and the type in decimal.  Reading a name cuts it at its
first slash and, behind that, at the first space; both numbers may carry a plus sign and leading
zeros, and the id may have capital digits.  A database name that holds a slash, holds a zero
character or is empty has no entry name.
-/
namespace Palmtop.Archive

/-- Whether records of this database can be named. -/
def isStorableName (database : String) : Bool :=
  !database.isEmpty && !database.toList.contains '/' && !database.toList.contains '\x00'

/-- The name under which a record is stored. -/
def entryName? (database : String) (id : UniqueId) (type : UInt8) : Option String :=
  if isStorableName database then some s!"{database}/{id.show} {type.toNat}" else none

/-- `cs` cut at the first `sep`, which belongs to neither part. -/
def cutAt? (sep : Char) : List Char → Option (List Char × List Char)
  | [] => none
  | c :: rest =>
    if c = sep then some ([], rest) else (cutAt? sep rest).map fun p => (c :: p.1, p.2)

/-- What an entry name stands for. -/
structure EntryName where
  database : String
  uniqueId : UniqueId
  recordType : UInt8
  deriving DecidableEq

/-- Reads an entry name. -/
def EntryName.parse? (name : String) : Option EntryName := do
  let (database, rest) ← cutAt? '/' name.toList
  let (id, type) ← cutAt? ' ' rest
  if database.isEmpty then none
  let id ← Text.readNumber? 16 UInt64.size id
  let type ← Text.readNumber? 10 256 type
  pure ⟨String.ofList database, UInt64.ofNat id, UInt8.ofNat type⟩

end Palmtop.Archive
