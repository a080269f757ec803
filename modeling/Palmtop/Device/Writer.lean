import Palmtop.Device.Session
import Palmtop.Transfer

/-! # Writing a device

A writer puts records into the databases they name.  What happens to records already there is the
write mode's business.  The first record of a database looks the database up and, when everything is
to be erased first, clears it; otherwise its slot table is fetched.  After every mutation the device
may have renumbered, so the table counts as stale and is fetched again before it is next used: a
slot is never used after a mutation that was issued behind it.
-/
namespace Palmtop

/-- How records are merged into a database that may already hold some. -/
inductive WriteMode where
  /-- Empty each database before its first record. -/
  | eraseAll
  /-- Replace records whose id exists, add the rest. -/
  | addAndOverwrite
  /-- Add records whose id does not exist, leave the rest alone. -/
  | addOnly
  /-- Add every record under a fresh id. -/
  | addAsNew
  deriving DecidableEq

namespace WriteMode

/-- The name in settings files. -/
def key : WriteMode → String
  | .eraseAll => "erase_all"
  | .addAndOverwrite => "add_and_overwrite"
  | .addOnly => "add_only"
  | .addAsNew => "add_as_new"

/-- The description for the user. -/
def label : WriteMode → String
  | .eraseAll => "erase all, then restore"
  | .addAndOverwrite => "add new and overwrite existing"
  | .addOnly => "add only, don't overwrite existing"
  | .addAsNew => "add every record as a new entry"

/-- Every mode. -/
def all : List WriteMode := [.eraseAll, .addAndOverwrite, .addOnly, .addAsNew]

/-- The mode with this name. -/
def ofKey? (key : String) : Option WriteMode := all.find? (·.key == key)

theorem ofKey?_key (m : WriteMode) : ofKey? m.key = some m := by cases m <;> decide

end WriteMode

namespace Device

variable {σ : Type}

/-- A database a writer has opened. -/
structure Writer.Target where
  id : DatabaseId
  table : SlotTable
  /-- A mutation was issued since the table was fetched. -/
  stale : Bool := false

/-- A writer's mode, the databases opened so far and its counts. -/
structure Writer where
  mode : WriteMode
  targets : List (String × Writer.Target) := []
  /-- Records written. -/
  written : Nat := 0
  /-- Records left alone because their id existed. -/
  skipped : Nat := 0

namespace Writer

/-- The target for a database already opened. -/
def target? (w : Writer) (database : String) : Option Target := w.targets.lookup database

/-- The writer with this target for the database. -/
def setTarget (w : Writer) (database : String) (target : Target) : Writer :=
  { w with targets := (database, target) :: w.targets.filter fun p => p.1 != database }

/-- The target for a database, looked up on the device unless it was opened before. -/
def reach (session : Session σ) (w : Writer) (database : String) (s : σ) :
    Except Error Target × Writer × σ :=
  match w.target? database with
  | some target => (.ok target, w, s)
  | none =>
    match session.databaseId database s with
    | (.error e, s) => (.error e, w, s)
    | (.ok id, s) =>
      if w.mode = .eraseAll then
        match session.clearDatabase id s with
        | (.error e, s) => (.error e, w, s)
        | (.ok (), s) =>
          let target := { id, table := {} }
          (.ok target, w.setTarget database target, s)
      else
        match session.slotTable id s with
        | (.error e, s) => (.error e, w, s)
        | (.ok table, s) =>
          let target := { id, table }
          (.ok target, w.setTarget database target, s)

/-- The target for a database, with a table no mutation was issued behind. -/
def freshTarget (session : Session σ) (w : Writer) (database : String) (s : σ) :
    Except Error Target × Writer × σ :=
  match w.reach session database s with
  | (.error e, w, s) => (.error e, w, s)
  | (.ok target, w, s) =>
    if target.stale then
      match session.slotTable target.id s with
      | (.error e, s) => (.error e, w, s)
      | (.ok fresh, s) =>
        let target := { target with table := target.table.refresh fresh, stale := false }
        (.ok target, w.setTarget database target, s)
    else (.ok target, w, s)

/-- The writer after a mutation was issued, counted if it was accepted. -/
def afterMutation (w : Writer) (result : Except Error Unit × σ) :
    Except Error Unit × Writer × σ :=
  match result with
  | (.ok (), s) => (.ok (), { w with written := w.written + 1 }, s)
  | (.error e, s) => (.error e, w, s)

/-- Puts one record into the database it names. -/
def put (session : Session σ) (w : Writer) (record : Record) (s : σ) :
    Except Error Unit × Writer × σ :=
  match w.freshTarget session record.database s with
  | (.error e, w, s) => (.error e, w, s)
  | (.ok target, w, s) =>
    match w.mode, target.table.slotOf? record.uniqueId with
    | .addOnly, some _ => (.ok (), { w with skipped := w.skipped + 1 }, s)
    | .addAndOverwrite, some slot =>
      let w := w.setTarget record.database { target with stale := true }
      w.afterMutation (session.writeRecord target.id slot record s)
    | .addAsNew, _ =>
      let (id, table) := target.table.allocate
      let w := w.setTarget record.database { target with table, stale := true }
      w.afterMutation (session.addRecord target.id (record.withUniqueId id) s)
    | _, _ =>
      let w := w.setTarget record.database { target with stale := true }
      w.afterMutation (session.addRecord target.id record s)

/-- The writer and the state behind its session as a consumer. -/
def consumer (session : Session σ) : Consumer (Writer × σ) Error where
  put record p := put session p.1 record p.2

end Writer

end Device

end Palmtop
