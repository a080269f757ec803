import Palmtop.Device.Session
import Palmtop.Transfer

/-! # Reading a device

A reader hands out every record of a list of databases, one database after the other, each in slot
order.  The slot table of a database is fetched when the reader first reaches it, so nothing is read
ahead.  An error, of a lookup, a table or a record, is handed to the caller and costs exactly what
was asked for: the next call goes on behind it.
-/
namespace Palmtop.Device

variable {σ : Type}

/-- The database being read and the slots still to be read. -/
structure Reader.Cursor where
  database : String
  id : DatabaseId
  pending : List Slot

/-- A reader's position. -/
structure Reader where
  /-- The databases not reached yet. -/
  databases : List String
  cursor : Option Reader.Cursor := none
  ended : Bool := false

namespace Reader

/-- A reader over the databases named. -/
def ofNames (databases : List String) : Reader := { databases }

/-- A reader over every database of the catalog. -/
def overAll (session : Session σ) (s : σ) : Except Error Reader × σ :=
  match session.catalog s with
  | (.ok entries, s) => (.ok (ofNames (entries.map (·.name))), s)
  | (.error e, s) => (.error e, s)

/-- The database being read. -/
def current? (r : Reader) : Option String := r.cursor.map (·.database)

/-- Gives up the rest of the database being read. -/
def skip (r : Reader) : Reader := { r with cursor := none }

/-- Enters the databases in turn up to the first that holds a record, and reads that record. -/
def advance (session : Session σ) : List String → σ → Except Error (Option Record) × Reader × σ
  | [], s => (.ok none, { databases := [], ended := true }, s)
  | name :: rest, s =>
    match session.databaseId name s with
    | (.error e, s) => (.error e, ofNames rest, s)
    | (.ok id, s) =>
      match session.slotTable id s with
      | (.error e, s) => (.error e, ofNames rest, s)
      | (.ok table, s) =>
        match table.slots with
        | [] => advance session rest s
        | slot :: pending =>
          let reader := { databases := rest, cursor := some ⟨name, id, pending⟩ }
          match session.readRecord id slot s with
          | (.error e, s) => (.error e, reader, s)
          | (.ok record, s) => (.ok (some record), reader, s)

/-- The next record, or nothing once all databases are exhausted. -/
def next (session : Session σ) (r : Reader) (s : σ) : Except Error (Option Record) × Reader × σ :=
  if r.ended then (.ok none, r, s)
  else match r.cursor with
    | some ⟨database, id, slot :: pending⟩ =>
      let reader := { r with cursor := some ⟨database, id, pending⟩ }
      match session.readRecord id slot s with
      | (.error e, s) => (.error e, reader, s)
      | (.ok record, s) => (.ok (some record), reader, s)
    | _ => advance session r.databases s

/-- The reader and the state behind its session as a producer. -/
def producer (session : Session σ) : Producer (Reader × σ) Error where
  next p := next session p.1 p.2
  ended p := p.1.ended

end Reader

end Palmtop.Device
