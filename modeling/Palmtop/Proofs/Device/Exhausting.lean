import Palmtop.Proofs.Device.Gathering
import Palmtop.Proofs.Device.Reading

/-! # Nothing is left out and nothing comes twice

Whatever is refused on the way, a reader over the catalog of a proper device hands out the records
that the device holds: what it has handed out and what it still `Awaits` are all of them, in their
order.  They are as many as the catalog announced (`length_allRecords`).
-/
namespace Palmtop.Device

variable {bus bus' : Bus} {id : ConnectionId} {d d' : Device} {refusals : Bus.Refusals}

open Bus (sessionsWith)

/-! ## What a device holds -/

theorem allRecords_of_holdings (h : d'.holdings = d.holdings) : d'.allRecords = d.allRecords := by
  have hrecords (d : Device) : d.allRecords = d.holdings.flatMap (·.2.values) := by
    rw [allRecords, holdings, List.flatMap_map]
  rw [hrecords, hrecords, h]

/-- The catalog announces as many records as there are. -/
theorem length_allRecords (d : Device) :
    d.listing.foldr (·.recordCount + ·) 0 = d.allRecords.length := by
  rw [listing, allRecords]
  induction d.databases with
  | nil => rfl
  | cons db dbs ih =>
    rw [List.map_cons, List.foldr_cons, ih, List.flatMap_cons, List.length_append,
      Slots.length_values]

/-- Under its id a database is found with its name and its records, whatever its settings are. -/
theorem database?_of_holdings {database : DatabaseId} {db : Database}
    (h : d'.holdings = d.holdings) (hdb : d'.database? database = some db) :
    ∃ x, d.database? database = some x ∧ x.name = db.name ∧ x.records = db.records := by
  unfold database? at hdb ⊢
  split at hdb
  · cases hdb
  · rename_i hid
    rw [if_neg hid]
    have hheld : d.holdings[database.toNat - 1]? = some (db.name, db.records) := by
      rw [← h, holdings, List.getElem?_map, hdb]
      rfl
    rw [holdings, List.getElem?_map] at hheld
    obtain ⟨x, hx, hpair⟩ := Option.map_eq_some_iff.mp hheld
    exact ⟨x, hx, (Prod.mk.inj hpair).1, (Prod.mk.inj hpair).2⟩

/-- A slot table lists the slots of the records of the database. -/
theorem Bus.Holds.slotTable {database : DatabaseId} {table : SlotTable} (h : bus.Holds id d)
    (hrun : (sessionsWith refusals id).slotTable database bus = (.ok table, bus')) :
    bus'.Holds id d ∧ ∃ db, d.database? database = some db ∧ table.slots = db.records.keys := by
  obtain ⟨hholds, d', hholdings, hexecute⟩ := h.run rfl hrun
  refine ⟨hholds, ?_⟩
  simp only [execute] at hexecute
  split at hexecute
  · cases hexecute
  rename_i db hreach
  split at hexecute
  · cases hexecute
  · obtain rfl := Except.ok.inj hexecute
    obtain ⟨x, hx, -, hrecords⟩ := database?_of_holdings hholdings (database?_of_reach hreach)
    refine ⟨x, hx, ?_⟩
    rw [hrecords]
    exact Slots.keys_map _ _

/-- The record that is read is the one in the slot. -/
theorem Bus.Holds.record {database : DatabaseId} {db : Database} {slot : Slot} {record : Record}
    (h : bus.Holds id d) (hdb : d.database? database = some db)
    (hrun : (sessionsWith refusals id).readRecord database slot bus = (.ok record, bus')) :
    bus'.Holds id d ∧ db.records.get? slot = some record := by
  obtain ⟨hholds, d', hholdings, hexecute⟩ := h.run rfl hrun
  refine ⟨hholds, ?_⟩
  simp only [execute] at hexecute
  split at hexecute
  · cases hexecute
  rename_i x hreach
  split at hexecute
  · rename_i r hget
    obtain rfl := Except.ok.inj hexecute
    obtain ⟨y, hy, -, hrecords⟩ := database?_of_holdings hholdings (database?_of_reach hreach)
    obtain rfl := Option.some.inj (hdb.symm.trans hy)
    exact hrecords ▸ hget
  · cases hexecute

/-! ## What is still to be read -/

namespace Reader

/-- The slots of the database are still to be read, and hold these records. -/
def Cursor.Awaits (d : Device) (c : Cursor) (now : List Record) : Prop :=
  ∃ db, d.database? c.id = some db ∧ c.pending.map db.records.get? = now.map some

/-- These records are still to be read: what is left of the database that the reader is in, and then
the databases that it has not reached. -/
structure Awaits (d : Device) (reader : Reader) (rest : List Record) : Prop where
  ended : reader.ended = true → rest = []
  going : reader.ended = false → ∃ now, rest = now ++ reader.databases.flatMap d.contents ∧
    (reader.cursor = none → now = []) ∧ ∀ c ∈ reader.cursor, c.Awaits d now

variable {reader reader' : Reader} {rest : List Record} {answer : Option Record}

theorem awaits_ofNames (d : Device) (names : List String) :
    Awaits d (ofNames names) (names.flatMap d.contents) :=
  ⟨nofun, fun _ => ⟨[], rfl, fun _ => rfl, nofun⟩⟩

/-- At first, all records are. -/
theorem awaits_catalog (hd : d.Proper) :
    Awaits d (ofNames (d.listing.map (·.name))) d.allRecords :=
  hd.flatMap_contents ▸ awaits_ofNames d _

/-- A record is read, and the others of the database are left. -/
theorem awaits_read (names : List String) {database : String} {databaseId : DatabaseId}
    {db : Database} {slot : Slot} {pending : List Slot} {record : Record} {now : List Record}
    (hdb : d.database? databaseId = some db) (hget : db.records.get? slot = some record)
    (hnow : (slot :: pending).map db.records.get? = now.map some) :
    ∃ later, now = record :: later ∧
      Awaits d { databases := names, cursor := some ⟨database, databaseId, pending⟩ }
        (later ++ names.flatMap d.contents) := by
  cases now with
  | nil => cases hnow
  | cons first later =>
    obtain ⟨hfirst, hlater⟩ := List.cons.inj hnow
    obtain rfl := Option.some.inj (hget.symm.trans hfirst)
    refine ⟨later, rfl, nofun, fun _ => ⟨later, rfl, nofun, ?_⟩⟩
    rintro _ ⟨⟩
    exact ⟨db, hdb, hlater⟩

/-- The reader goes on to the first database that holds a record. -/
theorem awaits_advance (hd : d.Proper) {names : List String} (hholds : bus.Holds id d)
    (h : advance (sessionsWith refusals id) names bus = (.ok answer, reader, bus')) :
    bus'.Holds id d ∧
      ∃ rest, names.flatMap d.contents = answer.toList ++ rest ∧ Awaits d reader rest := by
  induction names generalizing bus with
  | nil =>
    cases h
    exact ⟨hholds, [], rfl, fun _ => rfl, nofun⟩
  | cons name names ih =>
    unfold advance at h
    split at h
    · cases h
    rename_i hid
    obtain ⟨hlooked, hnamed⟩ := hholds.databaseId hd hid
    split at h
    · cases h
    rename_i htable
    obtain ⟨hfetched, db, hdb, hkeys⟩ := hlooked.slotTable htable
    have hname : db.name = name := by
      rw [nameOf?, hdb] at hnamed
      exact Option.some.inj hnamed
    have hcontents : d.contents name = db.records.values :=
      contents_of_named? (hname ▸ hd.named?_of_database? hdb)
    have hvalues := hkeys ▸ db.records.map_get?_keys
    rw [List.flatMap_cons, hcontents]
    split at h
    · -- the database is empty
      rename_i hslots
      rw [hslots, List.map_nil, eq_comm, List.map_eq_nil_iff] at hvalues
      rw [hvalues]
      exact ih hfetched h
    rename_i slot pending hslots
    rw [hslots] at hvalues
    dsimp only at h
    split at h
    · cases h
    · rename_i hread
      obtain ⟨hheld, hget⟩ := hfetched.record hdb hread
      cases h
      obtain ⟨later, hnow, hawaits⟩ := awaits_read names hdb hget hvalues
      exact ⟨hheld, _, by rw [hnow, Option.toList_some, List.singleton_append, List.cons_append],
        hawaits⟩

/-- What a reader hands out is the first of what it has still to read. -/
theorem Awaits.next (h : Awaits d reader rest) (hd : d.Proper) (hholds : bus.Holds id d)
    (hnext : reader.next (sessionsWith refusals id) bus = (.ok answer, reader', bus')) :
    bus'.Holds id d ∧ ∃ rest', rest = answer.toList ++ rest' ∧ Awaits d reader' rest' := by
  unfold Reader.next at hnext
  split at hnext
  · cases hnext
    exact ⟨hholds, rest, rfl, h⟩
  rename_i hgoing
  obtain ⟨now, rfl, hnone, hcursor⟩ := h.going (eq_false_of_ne_true hgoing)
  split at hnext
  · rename_i database databaseId slot pending hat
    obtain ⟨db, hdb, hnow⟩ := hcursor _ hat
    dsimp only at hnext
    split at hnext
    · cases hnext
    · rename_i hread
      obtain ⟨hheld, hget⟩ := hholds.record hdb hread
      cases hnext
      obtain ⟨later, rfl, hawaits⟩ := awaits_read reader.databases hdb hget hnow
      refine ⟨hheld, _, by rw [Option.toList_some, List.singleton_append, List.cons_append], ?_⟩
      rw [eq_false_of_ne_true hgoing]
      exact hawaits
  · -- nothing is left of the database that it is in
    rename_i hdone
    have hempty : now = [] := by
      rcases hat : reader.cursor with _ | ⟨database, databaseId, _ | ⟨slot, pending⟩⟩
      · exact hnone hat
      · obtain ⟨db, -, hnow⟩ := hcursor _ hat
        exact List.map_eq_nil_iff.mp hnow.symm
      · exact absurd hat (hdone database databaseId slot pending)
    rw [hempty, List.nil_append]
    exact awaits_advance hd hholds hnext

end Reader

end Palmtop.Device
