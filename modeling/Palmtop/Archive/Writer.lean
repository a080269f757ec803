import Palmtop.Archive.Container
import Palmtop.Archive.EntryName
import Palmtop.Text.Quoted
import Palmtop.Transfer

/-! # Writing an archive

A writer collects the members of an archive and stores the whole file when it is finished; until
then the file is there and empty.  A record that cannot be an entry is refused and leaves the
writer as it was.  If the file was removed in the meantime, finishing stores nothing, as what is
written into a removed file is lost.
-/
namespace Palmtop.Archive

/-- An archive being written. -/
structure Writer where
  path : Path
  /-- Where the file is. -/
  location : List String
  compression : Compression
  /-- The tar blocks so far. -/
  blocks : ByteArray := .empty
  /-- The number of records stored. -/
  written : Nat := 0

namespace Writer

/-- Creates the file, empty, and the directories around it. -/
def createWith (compression : Compression) (path : Path) (files : Files) :
    Except Error Writer × Files :=
  match files.makeParents path with
  | .error _ => (.error .io, files)
  | .ok files =>
    match files.create path with
    | .error _ => (.error .io, files)
    | .ok (location, files) => (.ok { path, location, compression }, files)

/-- Creates the file, compressed according to its extension. -/
def create (path : Path) (files : Files) : Except Error Writer × Files :=
  createWith (.ofPath path) path files

/-- Stores one record. -/
def put (w : Writer) (record : Record) : Except Error Unit × Writer :=
  match entryName? record.database record.uniqueId record.recordType with
  | none => (.error (.invalidEntry s!"bad database name {Text.quoted record.database}"), w)
  | some name =>
    match Tar.member? name record.payload with
    | none => (.error .io, w)
    | some blocks => (.ok (), { w with blocks := w.blocks ++ blocks, written := w.written + 1 })

/-- The bytes of the finished file. -/
def bytes (w : Writer) : ByteArray := w.compression.wrap (w.blocks ++ Tar.trailer)

/-- Ends the archive, answering the number of records stored. -/
def finish (w : Writer) (files : Files) : Nat × Files :=
  (w.written, files.store w.location w.bytes)

/-- The writer as a consumer. -/
def consumer : Consumer Writer Error where
  put record w := w.put record

end Writer

end Palmtop.Archive
