import Palmtop.Device.Session
import Palmtop.Replica.Error
import Palmtop.Replica.Kind

/-! # Replicas

A replica holds every record of one database together with the slot the device keeps it at, and
edits both together.  A record is found by its unique id alone; an entry handed out long ago is as
good as a new one.  After each mutation the device may have moved everything, so the slot table is
fetched again and every entry is given its new slot.

Any command may be refused.  An edit whose mutation was accepted is folded into the entries before
the edit ends, whatever else goes wrong: when the table cannot be fetched behind it, the replica
counts as *stale*, keeps the old slots as placeholders and fetches the table before it next uses
one.

New records come first, in front of those that were loaded; an edit never moves an entry.
-/
namespace Palmtop

/-- A record and the slot it was last seen at. -/
structure Replica.Entry where
  slot : Slot
  record : Record
  deriving DecidableEq

/-- One database as it is on the device. -/
structure Replica where
  name : String
  id : Device.DatabaseId
  kind : Replica.Kind
  table : SlotTable
  entries : List Replica.Entry
  /-- The table could not be fetched behind the last mutation. -/
  stale : Bool := false

namespace Replica

variable {σ : Type} (session : Device.Session σ)

namespace Entry

/-- The id of the entry's record. -/
def uniqueId (e : Entry) : UniqueId := e.record.uniqueId

/-- The entry at the slot a table gives for its record; at its old one if the table has none. -/
def relocate (table : SlotTable) (e : Entry) : Entry :=
  { e with slot := (table.slotOf? e.uniqueId).getD e.slot }

@[simp] theorem record_relocate (table : SlotTable) (e : Entry) :
    (e.relocate table).record = e.record := rfl

end Entry

/-! ## Loading and looking -/

/-- Reads the records at these slots, in this order. -/
def readAll (id : Device.DatabaseId) : List Slot → σ → Except Error (List Entry) × σ
  | [], s => (.ok [], s)
  | slot :: rest, s =>
    match session.readRecord id slot s with
    | (.error e, s) => (.error (.ofDevice e), s)
    | (.ok record, s) =>
      match readAll id rest s with
      | (.error e, s) => (.error e, s)
      | (.ok entries, s) => (.ok (⟨slot, record⟩ :: entries), s)

/-- The replica of the database of this name, with its records in slot order. -/
def load (name : String) (s : σ) : Except Error Replica × σ :=
  match session.databaseId name s with
  | (.error e, s) => (.error (.ofDevice e), s)
  | (.ok id, s) =>
    match session.slotTable id s with
    | (.error e, s) => (.error (.ofDevice e), s)
    | (.ok table, s) =>
      match readAll session id table.slots s with
      | (.error e, s) => (.error e, s)
      | (.ok entries, s) => (.ok { name, id, kind := .ofName name, table, entries }, s)

/-- The number of records. -/
def size (r : Replica) : Nat := r.entries.length

/-- The entry of the record with this id. -/
def find? (r : Replica) (id : UniqueId) : Option Entry := r.entries.find? (·.uniqueId == id)

/-! ## Slots -/

/-- Fetches the slot table and gives every entry its slot. -/
def refresh (r : Replica) (s : σ) : Except Error Unit × Replica × σ :=
  match session.slotTable r.id s with
  | (.error e, s) => (.error (.ofDevice e), { r with stale := true }, s)
  | (.ok fresh, s) =>
    let table := r.table.refresh fresh
    (.ok (), { r with table, entries := r.entries.map (·.relocate table), stale := false }, s)

/-- The slot of the record with this id, from a table that was fetched behind the last mutation. -/
def currentSlot (r : Replica) (id : UniqueId) (s : σ) : Except Error Slot × Replica × σ :=
  let look (r : Replica) (s : σ) : Except Error Slot × Replica × σ :=
    match r.table.slotOf? id with
    | some slot => (.ok slot, r, s)
    | none => (.error (.staleEntry id), r, s)
  if r.stale then
    match r.refresh session s with
    | (.error e, r, s) => (.error e, r, s)
    | (.ok (), r, s) => look r s
  else look r s

/-- What is known of a record the device has just accepted. -/
structure Settled where
  /-- Its slot, if the table in hand has it. -/
  slot : Option Slot
  /-- The error of fetching the table, if it could not be fetched. -/
  failure : Option Error

/-- Fetches the table behind a mutation that put the record with this id on the device.  It is an
error if the device does not list the record. -/
def settle (r : Replica) (id : UniqueId) (s : σ) : Except Error Settled × Replica × σ :=
  match r.refresh session s with
  | (.error e, r, s) => (.ok ⟨r.table.slotOf? id, some e⟩, r, s)
  | (.ok (), r, s) =>
    match r.table.slotOf? id with
    | some slot => (.ok ⟨some slot, none⟩, r, s)
    | none => (.error (.reconnect r.name), r, s)

/-- What an edit answers once its record is settled: the entry, or why the table was not fetched. -/
def Settled.answer (settled : Settled) (entry : Entry) : Except Error Entry :=
  match settled.failure with
  | some e => .error e
  | none => .ok entry

/-! ## Edits -/

/-- A record of this database with the type and payload of another. -/
def ownRecord (r : Replica) (id : UniqueId) (content : Record) : Record :=
  (content.inDatabase r.name).withUniqueId id

/-- Adds a record under a fresh id.  Until its slot is known the entry has slot zero. -/
def add (r : Replica) (content : Record) (s : σ) : Except Error Entry × Replica × σ :=
  let (id, table) := r.table.allocate
  let r := { r with table }
  let record := r.ownRecord id content
  match session.addRecord r.id record s with
  | (.error e, s) => (.error (.ofDevice e), r, s)
  | (.ok (), s) =>
    match r.settle session id s with
    | (.error e, r, s) => (.error e, r, s)
    | (.ok settled, r, s) =>
      let entry := ⟨settled.slot.getD 0, record⟩
      (settled.answer entry, { r with entries := entry :: r.entries }, s)

/-- The entries with this one in place of the first of its id. -/
def putBack (entry : Entry) : List Entry → List Entry
  | [] => []
  | e :: rest => if e.uniqueId = entry.uniqueId then entry :: rest else e :: putBack entry rest

/-- Overwrites the record at `slot` where it is. -/
def overwriteInPlace (r : Replica) (slot : Slot) (record : Record) (s : σ) :
    Except Error Entry × Replica × σ :=
  match session.writeRecord r.id slot record s with
  | (.error e, s) => (.error (.ofDevice e), r, s)
  | (.ok (), s) =>
    match r.settle session record.uniqueId s with
    | (.error e, r, s) => (.error e, r, s)
    | (.ok settled, r, s) =>
      let entry := ⟨settled.slot.getD slot, record⟩
      (settled.answer entry, { r with entries := putBack entry r.entries }, s)

/-- Deletes the record at `slot` and adds the new one under the same id.  The entry leaves the
replica with the deletion and comes back, to its old place, once the device has taken the new
record. -/
def overwriteByReplacing (r : Replica) (slot : Slot) (record : Record) (s : σ) :
    Except Error Entry × Replica × σ :=
  let id := record.uniqueId
  match session.deleteRecord r.id slot s with
  | (.error e, s) => (.error (.ofDevice e), r, s)
  | (.ok (), s) =>
    let place := r.entries.findIdx? (·.uniqueId == id)
    let r := { r with entries := r.entries.eraseP (·.uniqueId == id) }
    match r.refresh session s with
    | (.error e, r, s) => (.error e, r, s)
    | (.ok (), r, s) =>
      match session.addRecord r.id record s with
      | (.error e, s) => (.error (.ofDevice e), r, s)
      | (.ok (), s) =>
        match r.settle session id s with
        | (.error e, r, s) => (.error e, r, s)
        | (.ok settled, r, s) =>
          let entry := ⟨settled.slot.getD slot, record⟩
          let entries := match place with
            | some i => r.entries.insertIdx i entry
            | none => putBack entry r.entries
          (settled.answer entry, { r with entries }, s)

/-- Gives the record of an entry new content, under the same id. -/
def overwrite (r : Replica) (entry : Entry) (content : Record) (s : σ) :
    Except Error Entry × Replica × σ :=
  let record := r.ownRecord entry.uniqueId content
  match r.currentSlot session entry.uniqueId s with
  | (.error e, r, s) => (.error e, r, s)
  | (.ok slot, r, s) =>
    if r.kind.overwritesInPlace then r.overwriteInPlace session slot record s
    else r.overwriteByReplacing session slot record s

/-- Deletes the record of an entry. -/
def delete (r : Replica) (entry : Entry) (s : σ) : Except Error Unit × Replica × σ :=
  let id := entry.uniqueId
  match r.currentSlot session id s with
  | (.error e, r, s) => (.error e, r, s)
  | (.ok slot, r, s) =>
    match session.deleteRecord r.id slot s with
    | (.error e, s) => (.error (.ofDevice e), r, s)
    | (.ok (), s) =>
      { r with entries := r.entries.filter (·.uniqueId != id) }.refresh session s

/-- An edit of a replica. -/
inductive Edit where
  | add (content : Record)
  | overwrite (entry : Entry) (content : Record)
  | delete (entry : Entry)

/-- Runs an edit; a deletion answers no entry. -/
def edit (r : Replica) (e : Edit) (s : σ) : Except Error (Option Entry) × Replica × σ :=
  match e with
  | .add content => let (a, r, s) := r.add session content s; (a.map some, r, s)
  | .overwrite entry content =>
    let (a, r, s) := r.overwrite session entry content s
    (a.map some, r, s)
  | .delete entry => let (a, r, s) := r.delete session entry s; (a.map fun _ => none, r, s)

end Replica

end Palmtop
