import Palmtop.Device.Session

/-! # A device in memory

The reference device: named databases of records at slots, an optional lock, and faults that can be
switched on (a database that is read-only, refuses writes, refuses additions or refuses its slot
table; a broken link).  A *renumbering* device moves all records of a database to fresh slots after
each mutation of it, so that a slot remembered from before no longer addresses the same record.

The device keeps a transcript of the commands it was given.  How often records were read and slot
tables fetched are counts over that transcript.

`run` gives the meaning of each command.  A refused command changes nothing but the transcript.
-/
namespace Palmtop

namespace Device

/-- A database of a device and the faults switched on for it. -/
structure Database where
  name : String
  records : Slots Record := Slots.empty
  readOnly : Bool := false
  /-- Refuses every write. -/
  failing : Bool := false
  /-- Refuses additions alone. -/
  failingAdds : Bool := false
  refusingSlotTable : Bool := false
  deriving DecidableEq

/-- A password and the wrong attempts still allowed. -/
structure Lock where
  password : String
  tries : Nat
  deriving DecidableEq

end Device

/-- A device held in memory. -/
structure Device where
  databases : List Device.Database := []
  lock : Option Device.Lock := none
  renumbering : Bool := false
  /-- Where the last renumbering started. -/
  renumberBase : Slot := 0
  linkBroken : Bool := false
  /-- The commands given so far, newest first. -/
  transcript : List Device.Exchange := []
  deriving DecidableEq

namespace Device

/-! ## Databases -/

namespace Database

/-- The unique ids and records' slots as a slot table. -/
def table (d : Database) : SlotTable := { ids := d.records.map Record.uniqueId }

/-- Why the database takes no write, if it takes none. -/
def writeRefusal (d : Database) : Option Error :=
  if d.readOnly then some (.readOnly d.name)
  else if d.failing then some (.rejected s!"write to {d.name} refused")
  else none

/-- Why the database does not take this new record, if it does not. -/
def addRefusal (d : Database) (record : Record) : Option Error :=
  d.writeRefusal.or <|
    if d.failingAdds then some (.rejected s!"add to {d.name} refused")
    else if d.records.values.any (·.uniqueId == record.uniqueId) then
      some (.rejected s!"duplicate unique ID {record.uniqueId.show}")
    else none

/-- The records at the slots from `base` on, in the same order. -/
def renumber (base : Slot) (d : Database) : Database :=
  { d with records := Slots.numbered base d.records.values }

end Database

/-! ## The state behind a session -/

/-- How far apart two renumberings start. -/
def renumberStride : Slot := 1000

/-- The database with this id; ids count from one in catalog order. -/
def database? (d : Device) (id : DatabaseId) : Option Database :=
  if id = 0 then none else d.databases[id.toNat - 1]?

/-- The device with another state of the database with this id. -/
def setDatabase (d : Device) (id : DatabaseId) (database : Database) : Device :=
  { d with databases := d.databases.set (id.toNat - 1) database }

/-- The database with this id, if the link works. -/
def reach (d : Device) (id : DatabaseId) : Except Error Database :=
  if d.linkBroken then .error (.unreachable "link dropped")
  else match d.database? id with
    | some database => .ok database
    | none => .error (.databaseNotFound s!"#{id}")

/-- Stores a database that was just changed, renumbered on a renumbering device. -/
def mutate (d : Device) (id : DatabaseId) (database : Database) : Device :=
  if d.renumbering then
    let base := d.renumberBase + renumberStride
    { d.setDatabase id (database.renumber base) with renumberBase := base }
  else d.setDatabase id database

/-- The databases as the catalog lists them. -/
def listing (d : Device) : List CatalogEntry :=
  d.databases.map fun database => ⟨database.name, database.records.size⟩

/-- What a command answers and the device afterwards, but for the transcript. -/
def execute (d : Device) : (c : Command) → Except Error c.Answer × Device
  | .catalog =>
    if d.linkBroken then (.error (.unreachable "link dropped"), d) else (.ok d.listing, d)
  | .databaseId name =>
    match d.databases.findIdx? (·.name == name) with
    | some i => (.ok (UInt32.ofNat (i + 1)), d)
    | none => (.error (.databaseNotFound name), d)
  | .slotTable id =>
    match d.reach id with
    | .error e => (.error e, d)
    | .ok database =>
      if database.refusingSlotTable then
        (.error (.rejected s!"state table of {database.name} unavailable"), d)
      else (.ok database.table, d)
  | .readRecord id slot =>
    match d.reach id with
    | .error e => (.error e, d)
    | .ok database =>
      match database.records.get? slot with
      | some record => (.ok record, d)
      | none => (.error (.noSuchRecord slot), d)
  | .writeRecord id slot record =>
    match d.reach id with
    | .error e => (.error e, d)
    | .ok database =>
      match database.writeRefusal with
      | some e => (.error e, d)
      | none =>
        match database.records.get? slot with
        | none => (.error (.noSuchRecord slot), d)
        | some _ =>
          let records := database.records.insert slot (record.inDatabase database.name)
          (.ok (), d.mutate id { database with records })
  | .addRecord id record =>
    match d.reach id with
    | .error e => (.error e, d)
    | .ok database =>
      match database.addRefusal record with
      | some e => (.error e, d)
      | none =>
        let records :=
          database.records.insert database.records.next (record.inDatabase database.name)
        (.ok (), d.mutate id { database with records })
  | .deleteRecord id slot =>
    match d.reach id with
    | .error e => (.error e, d)
    | .ok database =>
      match database.writeRefusal with
      | some e => (.error e, d)
      | none =>
        match database.records.get? slot with
        | none => (.error (.noSuchRecord slot), d)
        | some _ => (.ok (), d.mutate id { database with records := database.records.erase slot })
  | .clearDatabase id =>
    match d.reach id with
    | .error e => (.error e, d)
    | .ok database =>
      match database.writeRefusal with
      | some e => (.error e, d)
      | none => (.ok (), d.setDatabase id { database with records := Slots.empty })

/-- The meaning of a command on an open session. -/
def run (d : Device) (c : Command) : Except Error c.Answer × Device :=
  let (answer, after) := d.execute c
  (answer, { after with transcript := ⟨c, accepted answer⟩ :: after.transcript })

/-- The device as a session that is always open. -/
def session : Session Device := ⟨fun c d => d.run c⟩

/-! ## Opening -/

/-- Opens a session.  A wrong password costs one attempt; a missing one costs none. -/
def unlock (d : Device) (password : Option String) : Except Error Unit × Device :=
  match d.lock with
  | none => (.ok (), d)
  | some lock =>
    if lock.tries = 0 then (.error .passwordExhausted, d)
    else match password with
      | none => (.error (.passwordRequired lock.tries), d)
      | some given =>
        if given = lock.password then (.ok (), d)
        else
          let tries := lock.tries - 1
          let after := { d with lock := some { lock with tries } }
          (.error (if tries = 0 then .passwordExhausted else .badPassword tries), after)

/-- A device together with one session on it, which may not be open yet. -/
structure Link where
  device : Device
  isOpen : Bool := false

/-- Opens the session of a link; a failed attempt leaves an open session open. -/
def Link.open (l : Link) (password : Option String) : Except Error Unit × Link :=
  match l.device.unlock password with
  | (.ok (), device) => (.ok (), { device, isOpen := true })
  | (.error e, device) => (.error e, { l with device })

/-- The session of a link: refuses every command until it is open. -/
def Link.session : Session Link where
  run c l :=
    if l.isOpen then
      let (answer, device) := l.device.run c
      (answer, { l with device })
    else (.error .notConnected, l)

/-! ## Setting up and looking inside -/

/-- The first database of this name. -/
def named? (d : Device) (name : String) : Option Database := d.databases.find? (·.name == name)

/-- The records of a database in slot order; none if there is no such database. -/
def contents (d : Device) (name : String) : List Record :=
  match d.named? name with
  | some database => database.records.values
  | none => []

/-- Why a device cannot be set up as asked. -/
inductive SetupError where
  | duplicateDatabase (name : String)
  | noDatabase (name : String)

/-- The line for the developer who set the device up. -/
def SetupError.message : SetupError → String
  | .duplicateDatabase name => s!"MockDevice::with_database: duplicate database {name}"
  | .noDatabase name => s!"MockDevice: no database named {name}"

/-- Adds a database with these records at the slots from zero on. -/
def addDatabase (d : Device) (name : String) (records : List Record) : Except SetupError Device :=
  if d.databases.any (·.name == name) then .error (.duplicateDatabase name)
  else
    let records := Slots.numbered 0 (records.map (·.inDatabase name))
    .ok { d with databases := d.databases ++ [{ name, records }] }

/-- Changes the settings of the database of this name. -/
def configure (d : Device) (name : String) (change : Database → Database) :
    Except SetupError Device :=
  match d.databases.findIdx? (·.name == name) with
  | some i => .ok { d with databases := d.databases.modify i change }
  | none => .error (.noDatabase name)

/-- The device after its cable was pulled. -/
def breakLink (d : Device) : Device := { d with linkBroken := true }

/-- How many record reads the device was asked for. -/
def recordReads (d : Device) : Nat :=
  d.transcript.countP fun e => match e.command with
    | .readRecord _ _ => true
    | _ => false

/-- How many records were added. -/
def recordsAdded (d : Device) : Nat :=
  d.transcript.countP fun e => match e.command with
    | .addRecord _ _ => e.accepted
    | _ => false

/-- How often the slot table of the database of this name was fetched. -/
def tableReads (d : Device) (name : String) : Nat :=
  match d.databases.findIdx? (·.name == name) with
  | some i => d.transcript.count ⟨.slotTable (UInt32.ofNat (i + 1)), true⟩
  | none => 0

/-- The unique ids of the records read since an earlier state of the device, latest first. -/
def idsReadSince (d earlier : Device) : List UniqueId :=
  let news := d.transcript.take (d.transcript.length - earlier.transcript.length)
  news.filterMap fun e => match e.command with
    | .readRecord id slot =>
      if e.accepted then ((d.database? id).bind (·.records.get? slot)).map (·.uniqueId) else none
    | _ => none

end Device

end Palmtop
