import Palmtop.Device.Slots
import Palmtop.Record

/-! # Slot tables

A slot table says which unique id sits at which slot of a database, as the device last reported it.
It also gives out ids for new records: the least id, in cyclic order after the one given out last,
that is not zero and not in the table.  Fetching the table anew replaces the ids and keeps the
position of the allocator, so no id is given out twice before the allocator has gone all the way
round.

A table has at most `2 ^ 32` ids, so the search for a free one always ends: among as many
consecutive ids as the table has, and two more, one is neither zero nor taken.
-/
namespace Palmtop

/-- Which unique id is at which slot, and the id given out last. -/
structure SlotTable where
  ids : Slots UniqueId := Slots.empty
  lastNewId : UniqueId := 0
  deriving DecidableEq

namespace SlotTable

/-- The table of these pairs; of two pairs with one slot the later counts. -/
def ofList (l : List (Slot × UniqueId)) : SlotTable := { ids := Slots.ofList l }

/-- The pairs in slot order. -/
def toList (t : SlotTable) : List (Slot × UniqueId) := t.ids.pairs

/-- The number of records. -/
def size (t : SlotTable) : Nat := t.ids.size

/-- The slots in use, in order. -/
def slots (t : SlotTable) : List Slot := t.ids.keys

/-- The id at `slot`. -/
def idAt? (t : SlotTable) (slot : Slot) : Option UniqueId := t.ids.get? slot

/-- The slot of the record with this id. -/
def slotOf? (t : SlotTable) (id : UniqueId) : Option Slot := t.ids.findSlot? (· == id)

/-- Whether a record has this id. -/
def contains (t : SlotTable) (id : UniqueId) : Bool := (t.slotOf? id).isSome

/-- The first id after `last`, in cyclic order, that is neither zero nor in `taken`; the search
tries `tries` ids before it settles on the next one. -/
def freeAfter (taken : List UniqueId) : Nat → UniqueId → UniqueId
  | 0, last => last + 1
  | tries + 1, last =>
    if last + 1 ≠ 0 ∧ last + 1 ∉ taken then last + 1 else freeAfter taken tries (last + 1)

/-- An id for a new record, and the table that remembers having given it out. -/
def allocate (t : SlotTable) : UniqueId × SlotTable :=
  let id := freeAfter t.ids.values (t.size + 1) t.lastNewId
  (id, { t with lastNewId := id })

/-- The ids of a freshly fetched table, with the allocator where it was. -/
def refresh (t fresh : SlotTable) : SlotTable := { t with ids := fresh.ids }

end SlotTable

end Palmtop
