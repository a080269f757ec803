import Palmtop.Proofs.Device.Memory

/-! # Commands on a sound device

A device is `Sound n` when its link works and `n` more mutations have room; `Ready n` when no fault
is switched on besides, so that `n` mutations go through.  For each command that a writer issues,
one theorem says what a sound device answers and what becomes of its databases, unless the database
addressed has a fault that refuses the command; then nothing happens (`Sound.refused`).  A mutation
changes the records of one database (`Changed`) and leaves the device sound for one mutation less.
-/
namespace Palmtop.Device

/-- There is room for `n` more mutations, whatever the faults of the databases. -/
structure Sound (d : Device) (n : Nat) : Prop where
  proper : d.Proper
  linked : d.linkBroken = false
  room : d.Room n

/-- `n` more mutations go through. -/
structure Ready (d : Device) (n : Nat) : Prop where
  proper : d.Proper
  willing : d.Willing
  room : d.Room n

instance (d : Device) (n : Nat) : Decidable (d.Ready n) :=
  decidable_of_iff (d.Proper ∧ d.Willing ∧ d.Room n)
    ⟨fun h => ⟨h.1, h.2.1, h.2.2⟩, fun h => ⟨h.1, h.2, h.3⟩⟩

/-- The device after a command that changed the records of one database, that with this id, and
nothing else. -/
structure Changed (d after : Device) (id : DatabaseId) (db new : Database) : Prop where
  before : d.database? id = some db
  bare : new.bare = db.bare
  linked : after.linkBroken = d.linkBroken
  names : after.databases.map (·.name) = d.databases.map (·.name)
  database? : ∀ other, after.database? other = if other = id then some new else d.database? other
  named? : ∀ name, after.named? name = if name = db.name then some new else d.named? name

variable {d d' after : Device} {n : Nat} {id : DatabaseId} {db new : Database} {e : Exchange}

@[simp] theorem sound_logged : (d.logged e).Sound n ↔ d.Sound n := by
  constructor
  · exact fun h => ⟨proper_logged _ _ |>.mp h.1, h.2, room_logged _ _ _ |>.mp h.3⟩
  · exact fun h => ⟨proper_logged _ _ |>.mpr h.1, h.2, room_logged _ _ _ |>.mpr h.3⟩

theorem Sound.mono {m : Nat} (h : d.Sound n) (hmn : m ≤ n) : d.Sound m :=
  ⟨h.proper, h.linked, h.room.mono hmn⟩

theorem Ready.sound (h : d.Ready n) : d.Sound n := ⟨h.proper, h.willing.linked, h.room⟩

theorem Ready.willing_database (h : d.Ready n) {name : String} (hdb : d.named? name = some db) :
    db.Willing := h.willing.databases db (named?_mem hdb).1

theorem Ready.mono {m : Nat} (h : d.Ready n) (hmn : m ≤ n) : d.Ready m :=
  ⟨h.proper, h.willing, h.room.mono hmn⟩

theorem Observed.sound (h : d.Observed d') (hd : d.Sound n) : d'.Sound n := by
  obtain ⟨_, rfl⟩ := h
  obtain ⟨⟨h₁, h₂, h₃, h₄⟩, hlinked, ⟨h₅, h₆, h₇⟩⟩ := hd
  exact ⟨⟨h₁, h₂, h₃, h₄⟩, hlinked, ⟨h₅, h₆, h₇⟩⟩

theorem Observed.ready (h : d.Observed d') (hd : d.Ready n) : d'.Ready n := by
  obtain ⟨hproper, -, hroom⟩ := h.sound hd.sound
  obtain ⟨_, rfl⟩ := h
  exact ⟨hproper, ⟨hd.willing.linked, hd.willing.databases⟩, hroom⟩

theorem Sound.uniqueIds_nodup (h : d.Sound n) (hdb : d.database? id = some db) :
    db.uniqueIds.Nodup := h.proper.uniqueIds db (database?_mem hdb)

/-! ## Changes -/

theorem Changed.name (h : d.Changed after id db new) : new.name = db.name :=
  Database.name_of_bare h.bare

theorem Changed.logged (h : d.Changed after id db new) : d.Changed (after.logged e) id db new :=
  ⟨h.1, h.2, h.3, h.4, h.5, h.6⟩

/-- Storing a database as it is changes nothing. -/
theorem Proper.changed_self (hd : d.Proper) (h : d.database? id = some db) :
    d.Changed d id db db where
  before := h
  bare := rfl
  linked := rfl
  names := rfl
  database? other := by
    split
    · rename_i he
      rw [he, h]
    · rfl
  named? name := by
    split
    · rename_i he
      rw [he, hd.named?_of_database? h]
    · rfl

theorem Changed.contents (h : d.Changed after id db new) (name : String) :
    after.contents name = if name = db.name then new.records.values else d.contents name := by
  by_cases he : name = db.name
  · simp [Device.contents, h.named?, he]
  · simp [Device.contents, h.named?, he]

/-- A database of another name is where it was. -/
theorem Changed.database?_of_ne (h : d.Changed after id db new) {other : DatabaseId}
    {x : Database} (hx : d.database? other = some x) (hn : x.name ≠ db.name) :
    after.database? other = some x := by
  have hne : other ≠ id := fun he => by
    rw [he, h.before] at hx
    exact hn (Option.some.inj hx ▸ rfl)
  rw [h.database?, if_neg hne, hx]

theorem Changed.database?_self (h : d.Changed after id db new) :
    after.database? id = some new := by
  rw [h.database?, if_pos rfl]

/-! ## Nothing but one database -/

/-- Nothing changes but the records of the database of this name. -/
structure Leaves (d d' : Device) (name : String) : Prop where
  linked : d'.linkBroken = d.linkBroken
  names : d'.databases.map (·.name) = d.databases.map (·.name)
  /-- Each database is there as before, with its faults. -/
  bare : ∀ other, (d'.named? other).map Database.bare = (d.named? other).map Database.bare
  named? : ∀ other ≠ name, d'.named? other = d.named? other
  database? : ∀ id db, d.database? id = some db → db.name ≠ name → d'.database? id = some db

theorem Observed.leaves (h : d.Observed d') (name : String) : d.Leaves d' name := by
  refine ⟨?_, by rw [h.databases], fun _ => by rw [h.named?], fun _ _ => by rw [h.named?],
    fun id db hdb _ => ?_⟩
  · obtain ⟨_, rfl⟩ := h
    rfl
  · rw [h.database?]
    exact hdb

theorem Leaves.trans {d'' : Device} {name : String} (h : d.Leaves d' name)
    (h' : d'.Leaves d'' name) : d.Leaves d'' name where
  linked := h'.linked.trans h.linked
  names := h'.names.trans h.names
  bare other := (h'.bare other).trans (h.bare other)
  named? other hne := (h'.named? other hne).trans (h.named? other hne)
  database? id db hdb hne := h'.database? id db (h.database? id db hdb hne) hne

theorem Changed.leaves (hd : d.Proper) (h : d.Changed after id db new) :
    d.Leaves after db.name where
  linked := h.linked
  names := h.names
  bare other := by
    rw [h.named?]
    split
    · rename_i he
      rw [he, hd.named?_of_database? h.before, Option.map_some, Option.map_some, h.bare]
    · rfl
  named? other hne := by rw [h.named?, if_neg hne]
  database? _ _ hx hne := h.database?_of_ne hx hne

/-- The names stay. -/
theorem Leaves.named?_eq_none_iff {name : String} (h : d.Leaves d' name) (other : String) :
    d'.named? other = none ↔ d.named? other = none := by
  rw [Device.named?_eq_none_iff, Device.named?_eq_none_iff, h.names]

/-- The faults stay. -/
theorem Leaves.bare_of_named? {name other : String} (h : d.Leaves d' name)
    (hdb : d.named? other = some db) (hnew : d'.named? other = some new) : new.bare = db.bare := by
  have hbare := h.bare other
  rw [hdb, hnew] at hbare
  exact Option.some.inj hbare

theorem Leaves.willing {name : String} (h : d.Leaves d' name) (hd : d.Willing)
    (hd' : d'.Proper) : d'.Willing where
  linked := h.linked.trans hd.linked
  databases x hx := by
    have hx := hd'.named?_eq_some_iff.mpr ⟨hx, rfl⟩
    obtain ⟨db, hdb⟩ := Option.ne_none_iff_exists'.mp fun hnone => by
      rw [(h.named?_eq_none_iff x.name).mpr hnone] at hx
      cases hx
    exact (hd.databases db (named?_mem hdb).1).of_bare (h.bare_of_named? hdb hx)

theorem Leaves.ready {m : Nat} {name : String} (h : d.Leaves d' name) (hd : d.Ready m)
    (hd' : d'.Sound n) : d'.Ready n :=
  ⟨hd'.proper, h.willing hd.willing hd'.proper, hd'.room⟩

/-! ## What a sound device answers -/

theorem run_session (d : Device) (c : Command) : session.run c d
    = ((d.execute c).1, (d.execute c).2.logged ⟨c, accepted (d.execute c).1⟩) := rfl

/-- A mutation that adds one record at most, and ids of its own. -/
theorem Sound.mutate (h : d.Sound (n + 1)) (hdb : d.database? id = some db) (new : Database)
    (hb : new.bare = db.bare) (hs : new.records.size ≤ db.records.size + 1)
    (hk : ∀ k ∈ new.records.keys, k.toNat + n < UInt32.size) (hu : new.uniqueIds.Nodup)
    (ho : ∀ r ∈ new.records.values, r.database = new.name) :
    (d.mutate id new).Sound n ∧ d.Changed (d.mutate id new) id db (d.stored new) ∧
      (d.stored new).records.values = new.records.values := by
  have hn : new.name = db.name := Database.name_of_bare hb
  have hproper := h.proper.mutate h.room hdb hn hs hu ho
  refine ⟨⟨hproper, ?_, h.room.mutate hdb hs hk⟩,
    ⟨hdb, by rw [bare_stored, hb], linkBroken_mutate .., ?_, ?_, ?_⟩,
    values_stored h.room (database?_mem hdb) hs⟩
  · rw [linkBroken_mutate, h.linked]
  · rw [mutate_eq]
    exact names_setDatabase hdb (by rw [name_stored, hn])
  · exact database?_mutate hdb
  · exact h.proper.named?_mutate hproper hdb hn

/-- What a fault refuses leaves the device as it was. -/
theorem Sound.refused (h : d.Sound n) (hdb : d.database? id = some db) {c : Command}
    (hc : c.database? = some id) {error : Error} (he : db.refusal c = some error) :
    ∃ d', session.run c d = (.error error, d') ∧ d.Observed d' :=
  ⟨_, by rw [run_session, execute_of_refusal h.linked hc hdb he], (observed_self d).logged _⟩

theorem Sound.catalog (h : d.Sound n) :
    session.catalog d = (.ok d.listing, d.logged ⟨.catalog, true⟩) := by
  rw [Session.catalog, run_session, execute, h.linked]
  rfl

theorem Sound.databaseId (h : d.Sound n) {name : String} (hdb : d.named? name = some db) :
    ∃ id e, session.databaseId name d = (.ok id, d.logged e) ∧ d.database? id = some db := by
  obtain ⟨id, hid, hat⟩ := h.proper.databaseId_of_named? hdb
  exact ⟨id, _, by rw [Session.databaseId, run_session, hid], hat⟩

theorem Sound.databaseId_missing (_ : d.Sound n) {name : String} (hdb : d.named? name = none) :
    ∃ e, session.databaseId name d = (.error (.databaseNotFound name), d.logged e) :=
  ⟨_, by rw [Session.databaseId, run_session, databaseId_of_not_named hdb]⟩

theorem Sound.slotTable (h : d.Sound n) (hdb : d.database? id = some db)
    (ht : db.tableRefusal = none) : ∃ e, session.slotTable id d = (.ok db.table, d.logged e) :=
  ⟨_, by rw [Session.slotTable, run_session, slotTable_eq h.linked hdb ht]⟩

theorem Sound.readRecord (h : d.Sound n) (hdb : d.database? id = some db) {slot : Slot}
    {r : Record} (hr : db.records.get? slot = some r) :
    ∃ e, session.readRecord id slot d = (.ok r, d.logged e) :=
  ⟨_, by rw [Session.readRecord, run_session, readRecord_eq h.linked hdb hr]⟩

/-- Clearing moves no record to a fresh slot, and so takes no room. -/
theorem Sound.clearDatabase (h : d.Sound n) (hdb : d.database? id = some db)
    (hw : db.writeRefusal = none) :
    ∃ after, session.clearDatabase id d = (.ok (), after) ∧ after.Sound n ∧
      d.Changed after id db { db with records := Slots.empty } := by
  let new : Database := { db with records := Slots.empty }
  have hsound : (d.setDatabase id new).Sound n := by
    refine ⟨h.proper.setDatabase hdb rfl List.nodup_nil (by simp [new]), h.linked,
      ⟨h.room.few, ?_, ?_⟩⟩
    · intro x hx
      rcases mem_setDatabase hx with rfl | hx
      · simp [new]
      · exact h.room.slots x hx
    · intro hren x hx
      rcases mem_setDatabase hx with rfl | hx
      · have := h.room.base hren db (database?_mem hdb)
        have hsize : new.records.size = 0 := rfl
        change d.renumberBase.toNat + _ + _ + _ ≤ _
        omega
      · exact h.room.base hren x hx
  refine ⟨_, by rw [Session.clearDatabase, run_session, clearDatabase_eq h.linked hdb hw],
    sound_logged.mpr hsound, Changed.logged ?_⟩
  exact ⟨hdb, rfl, rfl, names_setDatabase hdb rfl, database?_setDatabase hdb,
    h.proper.named?_setDatabase hsound.proper hdb rfl⟩

/-- A record over another of its id. -/
theorem Sound.writeRecord (h : d.Sound (n + 1)) (hdb : d.database? id = some db)
    (hw : db.writeRefusal = none) {slot : Slot} {old r : Record}
    (hs : db.records.get? slot = some old) (hid : old.uniqueId = r.uniqueId)
    (hr : r.database = db.name) :
    ∃ after new, session.writeRecord id slot r d = (.ok (), after) ∧ after.Sound n ∧
      d.Changed after id db new ∧ new.records.values
        = db.records.values.map fun x => if x.uniqueId = r.uniqueId then r else x := by
  have hnodup := h.uniqueIds_nodup hdb
  have hin := inDatabase_eq_self hr
  let new : Database := { db with records := db.records.insert slot r }
  have hvalues : new.records.values
      = db.records.values.map fun x => if x.uniqueId = r.uniqueId then r else x := by
    rw [← hid]
    exact Slots.values_insert_of_get? hs r hnodup
  have hids : new.uniqueIds = db.uniqueIds := by
    rw [Database.uniqueIds, hvalues]
    exact Slots.map_key_overwriting Record.uniqueId r db.records.values
  have hkeys : new.records.keys = db.records.keys := Slots.keys_insert_of_get? hs r
  have hsize : new.records.size = db.records.size := by
    rw [← Slots.length_keys, hkeys, Slots.length_keys]
  have hslots : ∀ k ∈ new.records.keys, k.toNat + n < UInt32.size := fun k hk => by
    have := h.room.slots db (database?_mem hdb) k (hkeys ▸ hk)
    omega
  have howned : ∀ x ∈ new.records.values, x.database = new.name := fun x hx => by
    rw [hvalues] at hx
    obtain ⟨y, hy, rfl⟩ := List.mem_map.mp hx
    split
    · exact hr
    · exact h.proper.owned db (database?_mem hdb) y hy
  obtain ⟨hsound, hchanged, hstored⟩ := h.mutate hdb new rfl (by omega) hslots (hids ▸ hnodup)
    howned
  refine ⟨_, _, by rw [Session.writeRecord, run_session, writeRecord_eq h.linked hdb hw hs, hin],
    sound_logged.mpr hsound, hchanged.logged, hstored.trans hvalues⟩

/-- A record whose id is new goes behind all others. -/
theorem Sound.addRecord (h : d.Sound (n + 1)) (hdb : d.database? id = some db)
    (hg : db.growthRefusal = none) {r : Record} (hnew : r.uniqueId ∉ db.uniqueIds)
    (hr : r.database = db.name) :
    ∃ after new, session.addRecord id r d = (.ok (), after) ∧ after.Sound n ∧
      d.Changed after id db new ∧ new.records.values = db.records.values ++ [r] := by
  have hin := inDatabase_eq_self hr
  have hslots := h.room.slots db (database?_mem hdb)
  have hlt : ∀ k ∈ db.records.keys, k.toNat + 1 < UInt32.size := fun k hk => by
    have := hslots k hk
    omega
  -- a renumbering device moves it on at once, which keeps the order
  let new : Database := { db with records := db.records.insert db.records.next r }
  have hvalues : new.records.values = db.records.values ++ [r] := Slots.values_insert_next hlt r
  have hkeys : new.records.keys = db.records.keys ++ [db.records.next] :=
    Slots.keys_insert_next hlt r
  have hsize : new.records.size = db.records.size + 1 := by
    rw [← Slots.length_keys, hkeys, List.length_append, Slots.length_keys]
    rfl
  have hids : new.uniqueIds = db.uniqueIds ++ [r.uniqueId] := by
    rw [Database.uniqueIds, hvalues, List.map_append]
    rfl
  have hslots' : ∀ k ∈ new.records.keys, k.toNat + n < UInt32.size := fun k hk => by
    have hfew := h.room.few
    rcases List.mem_append.mp (hkeys ▸ hk) with hk | hk
    · have := hslots k hk
      omega
    · rw [List.mem_singleton.mp hk]
      -- the new slot is the first of all, or one behind another
      rcases db.records.toNat_next_le with h0 | ⟨k', hk', hle⟩
      · omega
      · have := hslots k' hk'
        omega
  have hnodup : new.uniqueIds.Nodup := by
    rw [hids]
    refine List.nodup_append.mpr ⟨h.uniqueIds_nodup hdb, List.nodup_singleton _, ?_⟩
    rintro x hx y hy rfl
    exact hnew (List.mem_singleton.mp hy ▸ hx)
  have howned : ∀ x ∈ new.records.values, x.database = new.name := fun x hx => by
    rcases List.mem_append.mp (hvalues ▸ hx) with hx | hx
    · exact h.proper.owned db (database?_mem hdb) x hx
    · rw [List.mem_singleton.mp hx]
      exact hr
  obtain ⟨hsound, hchanged, hstored⟩ := h.mutate hdb new rfl (by omega) hslots' hnodup howned
  refine ⟨_, _, by rw [Session.addRecord, run_session, addRecord_eq h.linked hdb hg hnew, hin],
    sound_logged.mpr hsound, hchanged.logged, hstored.trans hvalues⟩

/-- A record is taken out, and no other gets a slot behind the last one. -/
theorem Sound.deleteRecord (h : d.Sound (n + 1)) (hdb : d.database? id = some db)
    (hw : db.writeRefusal = none) {slot : Slot} {old : Record}
    (hs : db.records.get? slot = some old) :
    ∃ after new, session.deleteRecord id slot d = (.ok (), after) ∧ after.Sound n ∧
      d.Changed after id db new ∧ new.records.values
        = db.records.values.filter fun x => x.uniqueId ≠ old.uniqueId := by
  have hnodup := h.uniqueIds_nodup hdb
  let new : Database := { db with records := db.records.erase slot }
  have hpairs : new.records.pairs.Sublist db.records.pairs := List.filter_sublist
  have hvalues : new.records.values.Sublist db.records.values := hpairs.map _
  have hsize : new.records.size ≤ db.records.size := hpairs.length_le
  have hslots : ∀ k ∈ new.records.keys, k.toNat + n < UInt32.size := fun k hk => by
    have := h.room.slots db (database?_mem hdb) k ((hpairs.map _).subset hk)
    omega
  have howned : ∀ x ∈ new.records.values, x.database = new.name := fun x hx =>
    h.proper.owned db (database?_mem hdb) x (hvalues.subset hx)
  obtain ⟨hsound, hchanged, hstored⟩ := h.mutate hdb new rfl (by omega) hslots
    ((hvalues.map Record.uniqueId).nodup hnodup) howned
  refine ⟨_, _, by rw [Session.deleteRecord, run_session, deleteRecord_eq h.linked hdb hw hs],
    sound_logged.mpr hsound, hchanged.logged, hstored.trans ?_⟩
  exact Slots.values_erase_of_get? hs hnodup

theorem Sound.addRecord_duplicate (h : d.Sound n) (hdb : d.database? id = some db)
    (hg : db.growthRefusal = none) {r : Record} (hr : r.uniqueId ∈ db.uniqueIds) :
    ∃ e, session.addRecord id r d
      = (.error (.rejected s!"duplicate unique ID {r.uniqueId.show}"), d.logged e) :=
  ⟨_, by rw [Session.addRecord, run_session,
    Device.addRecord_duplicate h.linked hdb hg hr]⟩

end Palmtop.Device
