import Palmtop.Text.Digits

/-! # Records

A handheld keeps its data in named databases of records.  A record is an opaque payload with a type
byte; its identity is the database together with a unique id of 64 bits.  Nothing in the library
looks into a payload.  A record is never changed: an edit makes a new record that takes the place of
the old one.
-/
namespace Palmtop

/-- The lasting name of a record within its database. -/
abbrev UniqueId := UInt64

/-- An identifier as the user sees it: at least eight hexadecimal places. -/
def UniqueId.show (id : UniqueId) : String := Text.hex8 id.toNat

/-- One entry of a database. -/
structure Record where
  database : String
  uniqueId : UniqueId
  recordType : UInt8
  payload : ByteArray

namespace Record

/-- Records are compared byte by byte. -/
instance : DecidableEq Record := fun r s =>
  decidable_of_decidable_of_iff
    (p := r.database = s.database ∧ r.uniqueId = s.uniqueId ∧ r.recordType = s.recordType ∧
      r.payload.data = s.payload.data)
    (by
      obtain ⟨_, _, _, ⟨_⟩⟩ := r
      obtain ⟨_, _, _, ⟨_⟩⟩ := s
      simp)

/-- The same content under another id, as when a device gives out a fresh one. -/
def withUniqueId (r : Record) (id : UniqueId) : Record := { r with uniqueId := id }

/-- New content under the same identity. -/
def withPayload (r : Record) (payload : ByteArray) : Record := { r with payload }

/-- The same id and content as an entry of another database. -/
def inDatabase (r : Record) (name : String) : Record := { r with database := name }

/-- Database, id and payload size on one line. -/
def summary (r : Record) : String :=
  s!"{r.database}/{r.uniqueId.show} ({r.payload.size} bytes)"

end Record

/-- What a device's catalog says of one database. -/
structure CatalogEntry where
  name : String
  /-- A count in 32 bits is the same: each record has a slot of its own, and a database with a
  record at every one of the `2 ^ 32` slots (`Slots.size_le`) is more than a device holds. -/
  recordCount : Nat
  deriving DecidableEq

end Palmtop
