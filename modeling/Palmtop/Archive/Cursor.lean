import Palmtop.Archive.Container
import Palmtop.Archive.EntryName
import Palmtop.Text.Utf8
import Palmtop.Transfer

/-! # Reading an archive

A cursor hands out the records of an archive in order.  Members that are no plain files or have no
entry name are passed over, and so are those of databases the filter leaves out.  A wanted member
that is larger than any record, or shorter than it claims, is an error; reading goes on behind it.
Where the file breaks off there is one error, and behind it the end.

The next record can be looked at before it is taken, and the rest of the current database can be
skipped: its records are then passed over until a record of another database has been taken.
-/
namespace Palmtop.Archive

/-- The greatest payload of a record. -/
def maxPayload : Nat := 16 * 1024 * 1024

/-- A position in an archive. -/
structure Cursor where
  /-- The members to come. -/
  members : List Tar.Member
  /-- The archive breaks off behind them. -/
  broken : Bool
  /-- The databases wanted; all if there is no filter. -/
  filter : Option (List String) := none
  /-- A record read ahead. -/
  peeked : Option Record := none
  /-- The database of the record taken last. -/
  current : Option String := none
  /-- The database being passed over. -/
  skipping : Option String := none
  ended : Bool := false

namespace Cursor

/-- A cursor at the start of an archive. -/
def ofContents (contents : Tar.Contents) (filter : Option (List String)) : Cursor :=
  { members := contents.members, broken := contents.broken, filter }

/-- Whether records of this database are to be handed out. -/
def wanted (c : Cursor) (database : String) : Bool :=
  c.skipping != some database &&
    match c.filter with
    | some names => names.contains database
    | none => true

/-- The entry name of a member that can be a record. -/
def entry? (m : Tar.Member) : Option EntryName :=
  if m.isFile then EntryName.parse? (Text.lossy m.name) else none

/-- The record of a member, if its size is right. -/
def recordOf (name : EntryName) (m : Tar.Member) : Except Error Record :=
  if maxPayload < m.size ∨ m.data.size ≠ m.size then .error .invalidData
  else .ok ⟨name.database, name.uniqueId, name.recordType, m.data⟩

/-- The first member wanted, as a record or an error, and the members behind it. -/
def seek (wanted : String → Bool) : List Tar.Member → Option (Except Error Record × List Tar.Member)
  | [] => none
  | m :: rest =>
    match entry? m with
    | none => seek wanted rest
    | some name => if wanted name.database then some (recordOf name m, rest) else seek wanted rest

/-- The next record of the archive, whatever was read ahead. -/
def pull (c : Cursor) : Except Error (Option Record) × Cursor :=
  match seek c.wanted c.members with
  | some (.ok record, members) => (.ok (some record), { c with members })
  | some (.error e, members) => (.error e, { c with members })
  | none =>
    if c.broken then (.error .invalidData, { c with members := [], broken := false })
    else (.ok none, { c with members := [], ended := true })

/-- The cursor after `record` was taken. -/
def taken (c : Cursor) (record : Record) : Cursor :=
  if c.current = some record.database then c
  else { c with current := some record.database, skipping := none }

/-- Takes the next record. -/
def next (c : Cursor) : Except Error (Option Record) × Cursor :=
  match c.peeked with
  | some record => (.ok (some record), { c with peeked := none }.taken record)
  | none =>
    match c.pull with
    | (.ok (some record), c) => (.ok (some record), c.taken record)
    | (.ok none, c) => (.ok none, c)
    | (.error e, c) => (.error e, c)

/-- The database of the next record, which stays to be taken. -/
def peek (c : Cursor) : Except Error (Option String) × Cursor :=
  match c.peeked with
  | some record => (.ok (some record.database), c)
  | none =>
    match c.pull with
    | (.ok record, c) => (.ok (record.map (·.database)), { c with peeked := record })
    | (.error e, c) => (.error e, c)

/-- Passes over the rest of the current database. -/
def skip (c : Cursor) : Cursor :=
  match c.current with
  | none => c
  | some database =>
    { c with
      current := none
      skipping := some database
      peeked := c.peeked.filter fun record => record.database != database }

/-- Whether the archive has been seen to end. -/
def atEnd (c : Cursor) : Bool := c.ended && c.peeked.isNone

/-- The cursor as a producer. -/
def producer : Producer Cursor Error where
  next := next
  ended := atEnd

/-- All records up to the end or the first error; `limit` bounds the number of calls. -/
def drain : (limit : Nat) → Cursor → List Record × Option Error
  | 0, _ => ([], none)
  | limit + 1, c =>
    match c.next with
    | (.ok none, _) => ([], none)
    | (.error e, _) => ([], some e)
    | (.ok (some record), c) =>
      let (records, error) := drain limit c
      (record :: records, error)

/-- A number of calls after which a drain has ended. -/
def drainLimit (c : Cursor) : Nat := c.members.length + 3

end Cursor

/-- Opens the archive at a path, restricted to the databases of a filter. -/
def open? (files : Files) (path : Path) (filter : Option (List String)) : Except Error Cursor :=
  (load files path).map fun contents => Cursor.ofContents contents filter

/-- The records of an archive up to its end or first error. -/
def records (files : Files) (path : Path) (filter : Option (List String)) :
    Except Error (List Record × Option Error) :=
  (open? files path filter).map fun c => c.drain c.drainLimit

/-- Counts with one more for this name. -/
def addCount (name : String) : List (String × Nat) → List (String × Nat)
  | [] => [(name, 1)]
  | (other, n) :: rest =>
    if other = name then (other, n + 1) :: rest else (other, n) :: addCount name rest

/-- The number of records of each database, if the archive is sound to its end. -/
def databaseCounts (files : Files) (path : Path) : Except Error (List (String × Nat)) :=
  match records files path none with
  | .error e => .error e
  | .ok (_, some e) => .error e
  | .ok (records, none) => .ok (records.foldl (fun counts r => addCount r.database counts) [])

/-- The number of records a filtered reading gives, if the whole archive is sound. -/
def countRecords (files : Files) (path : Path) (filter : Option (List String)) : Except Error Nat :=
  (databaseCounts files path).map fun counts =>
    let kept := counts.filter fun p =>
      match filter with
      | some names => names.contains p.1
      | none => true
    kept.foldr (·.2 + ·) 0

end Palmtop.Archive
