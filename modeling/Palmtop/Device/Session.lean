import Palmtop.Device.Error
import Palmtop.Device.SlotTable

/-! # Sessions

An open session takes eight commands.  A session is given by what each command answers and how it
changes the state behind the session, whatever that state is: a device in memory, a bus with several
devices, or a device together with a fault plan.  Everything above this module is written against
`Session`, so a law proved for all sessions holds for a device that may refuse any command at any
call.

`Session.recorded` keeps a transcript of the commands and whether each was accepted, so that laws
about which commands are issued can be stated of any session.
-/
namespace Palmtop.Device

/-- How a session refers to a database. -/
abbrev DatabaseId := UInt32

/-- A command on an open session. -/
inductive Command where
  /-- List the databases. -/
  | catalog
  /-- Look up a database by name. -/
  | databaseId (name : String)
  /-- Fetch the slot table of a database. -/
  | slotTable (id : DatabaseId)
  | readRecord (id : DatabaseId) (slot : Slot)
  /-- Replace the record at a slot. -/
  | writeRecord (id : DatabaseId) (slot : Slot) (record : Record)
  /-- Add a record; the device chooses its slot. -/
  | addRecord (id : DatabaseId) (record : Record)
  | deleteRecord (id : DatabaseId) (slot : Slot)
  /-- Remove every record of a database. -/
  | clearDatabase (id : DatabaseId)
  deriving DecidableEq

/-- What an accepted command answers. -/
abbrev Command.Answer : Command → Type
  | .catalog => List CatalogEntry
  | .databaseId _ => DatabaseId
  | .slotTable _ => SlotTable
  | .readRecord _ _ => Record
  | .writeRecord _ _ _ | .addRecord _ _ | .deleteRecord _ _ | .clearDatabase _ => Unit

/-- Whether an accepted command changes records. -/
def Command.isMutation : Command → Bool
  | .writeRecord _ _ _ | .addRecord _ _ | .deleteRecord _ _ | .clearDatabase _ => true
  | _ => false

/-- The database a command addresses by its id. -/
def Command.database? : Command → Option DatabaseId
  | .catalog | .databaseId _ => none
  | .slotTable id | .readRecord id _ | .writeRecord id _ _ | .addRecord id _ | .deleteRecord id _
  | .clearDatabase id => some id

/-- An open session over states `σ`. -/
structure Session (σ : Type) where
  run : (c : Command) → σ → Except Error c.Answer × σ

namespace Session

variable {σ : Type} (session : Session σ)

def catalog (s : σ) : Except Error (List CatalogEntry) × σ := session.run .catalog s

def databaseId (name : String) (s : σ) : Except Error DatabaseId × σ :=
  session.run (.databaseId name) s

def slotTable (id : DatabaseId) (s : σ) : Except Error SlotTable × σ :=
  session.run (.slotTable id) s

def readRecord (id : DatabaseId) (slot : Slot) (s : σ) : Except Error Record × σ :=
  session.run (.readRecord id slot) s

def writeRecord (id : DatabaseId) (slot : Slot) (record : Record) (s : σ) :
    Except Error Unit × σ :=
  session.run (.writeRecord id slot record) s

def addRecord (id : DatabaseId) (record : Record) (s : σ) : Except Error Unit × σ :=
  session.run (.addRecord id record) s

def deleteRecord (id : DatabaseId) (slot : Slot) (s : σ) : Except Error Unit × σ :=
  session.run (.deleteRecord id slot) s

def clearDatabase (id : DatabaseId) (s : σ) : Except Error Unit × σ :=
  session.run (.clearDatabase id) s

end Session

/-- One command as the device saw it, and whether it was accepted. -/
structure Exchange where
  command : Command
  accepted : Bool
  deriving DecidableEq

/-- Whether a result is an answer. -/
def accepted {ε α : Type} : Except ε α → Bool
  | .ok _ => true
  | .error _ => false

/-- The session that also keeps a transcript, newest exchange first. -/
def Session.recorded {σ : Type} (session : Session σ) : Session (σ × List Exchange) where
  run c s :=
    let (answer, after) := session.run c s.1
    (answer, after, ⟨c, accepted answer⟩ :: s.2)

end Palmtop.Device
