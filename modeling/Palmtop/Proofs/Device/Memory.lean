import Mathlib.Logic.Function.Basic
import Palmtop.Device.Memory
import Palmtop.Proofs.Device.Slots

/-! # Laws of the device in memory

What the commands do to the records of a device.  A device is `Proper` when it is as setting it up
leaves it: no two databases of one name, no two records of one id in a database, and every record
says which database it is in.  It is `Willing` when no fault is switched on, and it has `Room n`
while `n` more mutations do not run over the 32 bits of a slot.

A command that changes no records leaves the device as it was but for the transcript (`logged`); a
mutation changes one database and nothing else, and moving its records to fresh slots keeps their
order (`values_stored`).
-/
namespace Palmtop.Device

/-! ## Conditions on devices -/

/-- The unique ids of a database, in slot order. -/
def Database.uniqueIds (db : Database) : List UniqueId := db.records.values.map (·.uniqueId)

/-- The database without its records: its name and the faults switched on for it. -/
def Database.bare (db : Database) : Database := { db with records := Slots.empty }

/-- No fault is switched on for the database. -/
structure Database.Willing (db : Database) : Prop where
  readOnly : db.readOnly = false
  failing : db.failing = false
  failingAdds : db.failingAdds = false
  refusingSlotTable : db.refusingSlotTable = false

/-- No fault is switched on. -/
structure Willing (d : Device) : Prop where
  linked : d.linkBroken = false
  databases : ∀ db ∈ d.databases, db.Willing

/-- What setting a device up guarantees of its databases. -/
structure Proper (d : Device) : Prop where
  names : (d.databases.map (·.name)).Nodup
  /-- Every database has an id of 32 bits. -/
  addressable : d.databases.length < UInt32.size
  uniqueIds : ∀ db ∈ d.databases, db.uniqueIds.Nodup
  owned : ∀ db ∈ d.databases, ∀ r ∈ db.records.values, r.database = db.name

/-- `n` more mutations do not run over the numbers of slots. -/
structure Room (d : Device) (n : Nat) : Prop where
  few : n < UInt32.size
  slots : ∀ db ∈ d.databases, ∀ k ∈ db.records.keys, k.toNat + n < UInt32.size
  base : d.renumbering = true → ∀ db ∈ d.databases,
    d.renumberBase.toNat + 1000 * n + db.records.size + n ≤ UInt32.size

theorem Database.name_of_bare {db new : Database} (h : new.bare = db.bare) :
    new.name = db.name := by
  change new.bare.name = db.bare.name
  rw [h]

theorem Database.Willing.of_bare {db new : Database} (hw : db.Willing) (h : new.bare = db.bare) :
    new.Willing := by
  have hbare : new.bare.Willing := h ▸ ⟨hw.1, hw.2, hw.3, hw.4⟩
  exact ⟨hbare.1, hbare.2, hbare.3, hbare.4⟩

instance (db : Database) : Decidable db.Willing :=
  decidable_of_iff (db.readOnly = false ∧ db.failing = false ∧ db.failingAdds = false ∧
    db.refusingSlotTable = false)
    ⟨fun h => ⟨h.1, h.2.1, h.2.2.1, h.2.2.2⟩, fun h => ⟨h.1, h.2, h.3, h.4⟩⟩

instance (d : Device) : Decidable d.Willing :=
  decidable_of_iff (d.linkBroken = false ∧ ∀ db ∈ d.databases, db.Willing)
    ⟨fun h => ⟨h.1, h.2⟩, fun h => ⟨h.1, h.2⟩⟩

instance (d : Device) : Decidable d.Proper :=
  decidable_of_iff ((d.databases.map (·.name)).Nodup ∧ d.databases.length < UInt32.size ∧
    (∀ db ∈ d.databases, db.uniqueIds.Nodup) ∧
    ∀ db ∈ d.databases, ∀ r ∈ db.records.values, r.database = db.name)
    ⟨fun h => ⟨h.1, h.2.1, h.2.2.1, h.2.2.2⟩, fun h => ⟨h.1, h.2, h.3, h.4⟩⟩

instance (d : Device) (n : Nat) : Decidable (d.Room n) :=
  decidable_of_iff (n < UInt32.size ∧
    (∀ db ∈ d.databases, db.records.keys.all (·.toNat + n < UInt32.size) = true) ∧
    (d.renumbering = true → ∀ db ∈ d.databases,
      d.renumberBase.toNat + 1000 * n + db.records.size + n ≤ UInt32.size))
    -- slots are finitely many, and only the list keeps all of them from being tried
    ⟨fun h => ⟨h.1, fun db hdb k hk => of_decide_eq_true (List.all_eq_true.mp (h.2.1 db hdb) k hk),
      h.2.2⟩,
    fun h => ⟨h.1, fun db hdb => List.all_eq_true.mpr fun k hk =>
      decide_eq_true (h.slots db hdb k hk), h.3⟩⟩

theorem Room.mono {d : Device} {m n : Nat} (h : d.Room n) (hmn : m ≤ n) : d.Room m where
  few := Nat.lt_of_le_of_lt hmn h.few
  slots db hdb k hk := Nat.lt_of_le_of_lt (Nat.add_le_add_left hmn _) (h.slots db hdb k hk)
  base hr db hdb := by
    have := h.base hr db hdb
    omega

/-- A database set up with records of different ids leaves the device proper. -/
theorem Proper.addDatabase {d d' : Device} {name : String} {rs : List Record} (hd : d.Proper)
    (h : d.addDatabase name rs = .ok d') (hn : (rs.map (·.uniqueId)).Nodup)
    (hl : rs.length ≤ UInt32.size) (hroom : d.databases.length + 1 < UInt32.size) : d'.Proper := by
  unfold Device.addDatabase at h
  split at h
  · cases h
  rename_i hnew
  obtain rfl := Except.ok.inj h
  have hvalues : (Slots.numbered 0 (rs.map (·.inDatabase name))).values
      = rs.map (·.inDatabase name) := Slots.values_numbered (by simpa using hl)
  refine ⟨?_, by simpa using hroom, ?_, ?_⟩
  · rw [List.map_append, List.nodup_append]
    refine ⟨hd.names, by simp, ?_⟩
    rintro x hx y hy rfl
    obtain ⟨db, hdb, hdbn⟩ := List.mem_map.mp hx
    exact hnew (List.any_eq_true.mpr ⟨db, hdb, by simpa [hdbn] using hy⟩)
  · intro db hdb
    rcases List.mem_append.mp hdb with hdb | hdb
    · exact hd.uniqueIds db hdb
    · rw [List.mem_singleton.mp hdb, Database.uniqueIds, hvalues, List.map_map]
      exact hn
  · intro db hdb
    rcases List.mem_append.mp hdb with hdb | hdb
    · exact hd.owned db hdb
    · rw [List.mem_singleton.mp hdb, hvalues]
      intro r hr
      obtain ⟨s, -, rfl⟩ := List.mem_map.mp hr
      rfl

/-! ## The transcript -/

/-- The device with one more exchange in its transcript. -/
def logged (d : Device) (e : Exchange) : Device := { d with transcript := e :: d.transcript }

section logged
variable (d : Device) (e : Exchange)

@[simp] theorem databases_logged : (d.logged e).databases = d.databases := rfl

@[simp] theorem database?_logged (id : DatabaseId) :
    (d.logged e).database? id = d.database? id := rfl

@[simp] theorem named?_logged (name : String) : (d.logged e).named? name = d.named? name := rfl

@[simp] theorem contents_logged (name : String) :
    (d.logged e).contents name = d.contents name := rfl

@[simp] theorem proper_logged : (d.logged e).Proper ↔ d.Proper :=
  ⟨fun h => ⟨h.1, h.2, h.3, h.4⟩, fun h => ⟨h.1, h.2, h.3, h.4⟩⟩

@[simp] theorem willing_logged : (d.logged e).Willing ↔ d.Willing :=
  ⟨fun h => ⟨h.1, h.2⟩, fun h => ⟨h.1, h.2⟩⟩

@[simp] theorem room_logged (n : Nat) : (d.logged e).Room n ↔ d.Room n :=
  ⟨fun h => ⟨h.1, h.2, h.3⟩, fun h => ⟨h.1, h.2, h.3⟩⟩

end logged

theorem run_eq (d : Device) (c : Command) :
    d.run c = ((d.execute c).1, (d.execute c).2.logged ⟨c, accepted (d.execute c).1⟩) := rfl

/-- The device after commands that changed no record. -/
def Observed (d d' : Device) : Prop := ∃ transcript, d' = { d with transcript }

theorem observed_self (d : Device) : d.Observed d := ⟨d.transcript, rfl⟩

section observed
variable {d d' : Device}

theorem Observed.logged (h : d.Observed d') (e : Exchange) : d.Observed (d'.logged e) := by
  obtain ⟨_, rfl⟩ := h
  exact ⟨_, rfl⟩

theorem Observed.trans {d'' : Device} (h : d.Observed d') (h' : d'.Observed d'') :
    d.Observed d'' := by
  obtain ⟨_, rfl⟩ := h
  obtain ⟨_, rfl⟩ := h'
  exact ⟨_, rfl⟩

theorem Observed.database? (h : d.Observed d') : d'.database? = d.database? := by
  obtain ⟨_, rfl⟩ := h
  rfl

theorem Observed.named? (h : d.Observed d') : d'.named? = d.named? := by
  obtain ⟨_, rfl⟩ := h
  rfl

theorem Observed.databases (h : d.Observed d') : d'.databases = d.databases := by
  obtain ⟨_, rfl⟩ := h
  rfl

theorem Observed.linkBroken (h : d.Observed d') : d'.linkBroken = d.linkBroken := by
  obtain ⟨_, rfl⟩ := h
  rfl

end observed

/-! ## Finding a database -/

theorem database?_mem {d : Device} {id : DatabaseId} {db : Database}
    (h : d.database? id = some db) : db ∈ d.databases := by
  unfold database? at h
  split at h
  · cases h
  · exact List.mem_of_getElem? h

theorem named?_mem {d : Device} {name : String} {db : Database} (h : d.named? name = some db) :
    db ∈ d.databases ∧ db.name = name :=
  ⟨List.mem_of_find?_eq_some h, by simpa using List.find?_some h⟩

theorem contents_of_named? {d : Device} {name : String} {db : Database}
    (h : d.named? name = some db) : d.contents name = db.records.values := by
  simp [contents, h]

theorem contents_of_not_named {d : Device} {name : String} (h : d.named? name = none) :
    d.contents name = [] := by
  simp [contents, h]

theorem length_contents_le (d : Device) (name : String) :
    (d.contents name).length ≤ UInt32.size := by
  rw [contents]
  split
  · rename_i db _
    exact Slots.length_values db.records ▸ db.records.size_le
  · exact Nat.zero_le _

theorem named?_eq_none_iff {d : Device} {name : String} :
    d.named? name = none ↔ name ∉ d.databases.map (·.name) := by
  simp [named?, List.find?_eq_none]

namespace Proper
variable {d : Device} (hd : d.Proper)
include hd

theorem named?_eq_some_iff {name : String} {db : Database} :
    d.named? name = some db ↔ db ∈ d.databases ∧ db.name = name := by
  refine ⟨named?_mem, ?_⟩
  rintro ⟨h, rfl⟩
  cases hf : d.named? db.name with
  | none => exact absurd (List.mem_map_of_mem h) (named?_eq_none_iff.mp hf)
  | some other =>
    obtain ⟨hm, hn⟩ := named?_mem hf
    rw [List.inj_on_of_nodup_map hd.names hm h hn]

theorem named?_of_database? {id : DatabaseId} {db : Database} (h : d.database? id = some db) :
    d.named? db.name = some db := hd.named?_eq_some_iff.mpr ⟨database?_mem h, rfl⟩

/-- Two ids of databases of one name are one id. -/
theorem database?_inj {i j : DatabaseId} {a b : Database} (hi : d.database? i = some a)
    (hj : d.database? j = some b) (hn : a.name = b.name) : i = j := by
  unfold database? at hi hj
  split at hi
  · cases hi
  split at hj
  · cases hj
  rename_i hi0 hj0
  have he : i.toNat - 1 = j.toNat - 1 := by
    have ha : (d.databases.map (·.name))[i.toNat - 1]? = some a.name := by simp [hi]
    have hb : (d.databases.map (·.name))[j.toNat - 1]? = some a.name := by simp [hj, hn]
    exact (List.getElem?_inj (List.getElem?_eq_some_iff.mp ha).1 hd.names).mp (ha.trans hb.symm)
  have hi0 : i.toNat ≠ 0 := fun h => hi0 (UInt32.toNat_inj.mp h)
  have hj0 : j.toNat ≠ 0 := fun h => hj0 (UInt32.toNat_inj.mp h)
  exact UInt32.toNat_inj.mp (by omega)

/-- A name on the device is answered with the id of its database. -/
theorem databaseId_of_named? {name : String} {db : Database} (h : d.named? name = some db) :
    ∃ id, d.execute (.databaseId name) = (.ok id, d) ∧ d.database? id = some db := by
  obtain ⟨i, hi, hf⟩ : ∃ i, d.databases.findIdx? (·.name == name) = some i ∧
      d.databases[i]? = some db := by
    rw [named?, List.find?_eq_bind_findIdx?_getElem?] at h
    exact Option.bind_eq_some_iff.mp h
  refine ⟨UInt32.ofNat (i + 1), by simp [execute, hi], ?_⟩
  have hlt : i < d.databases.length := (List.getElem?_eq_some_iff.mp hf).1
  have hnat : (UInt32.ofNat (i + 1)).toNat = i + 1 := by
    rw [UInt32.toNat_ofNat']
    exact Nat.mod_eq_of_lt (Nat.lt_of_le_of_lt hlt hd.addressable)
  have hne : UInt32.ofNat (i + 1) ≠ 0 := fun h0 => by
    rw [h0] at hnat
    exact absurd hnat (by simp)
  rw [database?, if_neg hne, hnat]
  exact hf

end Proper

theorem databaseId_of_not_named {d : Device} {name : String} (h : d.named? name = none) :
    d.execute (.databaseId name) = (.error (.databaseNotFound name), d) := by
  have hi : d.databases.findIdx? (·.name == name) = none := by
    rw [named?, List.find?_eq_none] at h
    exact List.findIdx?_eq_none_iff.mpr fun x hx => by simpa using h x hx
  simp [execute, hi]

/-! ## Changing one database -/

section change
variable {d : Device} {id : DatabaseId} {db new : Database}

theorem databases_setDatabase (d : Device) (id : DatabaseId) (new : Database) :
    (d.setDatabase id new).databases = d.databases.set (id.toNat - 1) new := rfl

theorem database?_eq_some (h : d.database? id = some db) :
    id ≠ 0 ∧ d.databases[id.toNat - 1]? = some db := by
  unfold database? at h
  split at h
  · cases h
  · exact ⟨‹_›, h⟩

theorem database?_setDatabase (h : d.database? id = some db) (other : DatabaseId) :
    (d.setDatabase id new).database? other
      = if other = id then some new else d.database? other := by
  obtain ⟨h0, hat⟩ := database?_eq_some h
  have hlt := (List.getElem?_eq_some_iff.mp hat).1
  by_cases ho : other = 0
  · subst ho
    simp [database?, Ne.symm h0]
  by_cases he : other = id
  · subst he
    simp [database?, ho, databases_setDatabase, hlt]
  · have hne : id.toNat - 1 ≠ other.toNat - 1 := by
      have h1 : id.toNat ≠ 0 := fun h => h0 (UInt32.toNat_inj.mp h)
      have h2 : other.toNat ≠ 0 := fun h => ho (UInt32.toNat_inj.mp h)
      have h3 : other.toNat ≠ id.toNat := fun h => he (UInt32.toNat_inj.mp h)
      omega
    simp [database?, ho, he, databases_setDatabase, List.getElem?_set_ne hne]

theorem names_setDatabase (h : d.database? id = some db) (hn : new.name = db.name) :
    (d.setDatabase id new).databases.map (·.name) = d.databases.map (·.name) := by
  obtain ⟨-, hat⟩ := database?_eq_some h
  obtain ⟨hlt, hget⟩ := List.getElem?_eq_some_iff.mp hat
  rw [databases_setDatabase, List.map_set, hn, ← hget]
  exact List.ext_getElem (by simp) fun i h1 h2 => by
    by_cases he : id.toNat - 1 = i <;> simp [he]

theorem mem_setDatabase {x : Database} (h : x ∈ (d.setDatabase id new).databases) :
    x = new ∨ x ∈ d.databases := (List.mem_or_eq_of_mem_set h).symm

theorem Proper.setDatabase (hd : d.Proper) (h : d.database? id = some db)
    (hn : new.name = db.name) (hu : new.uniqueIds.Nodup)
    (ho : ∀ r ∈ new.records.values, r.database = new.name) : (d.setDatabase id new).Proper where
  names := names_setDatabase h hn ▸ hd.names
  addressable := by simpa [databases_setDatabase] using hd.addressable
  uniqueIds x hx := (mem_setDatabase hx).elim (fun he => he ▸ hu) (hd.uniqueIds x)
  owned x hx := (mem_setDatabase hx).elim (fun he => he ▸ ho) (hd.owned x)

theorem mem_setDatabase_of_ne (h : d.database? id = some db) {x : Database}
    (hx : x ∈ d.databases) (hne : x ≠ db) : x ∈ (d.setDatabase id new).databases := by
  obtain ⟨-, hat⟩ := database?_eq_some h
  obtain ⟨i, hi⟩ := List.mem_iff_getElem?.mp hx
  have hne : id.toNat - 1 ≠ i := fun he => hne (Option.some.inj (by rw [← hi, ← he, hat]))
  exact List.mem_iff_getElem?.mpr ⟨i, by rw [databases_setDatabase, List.getElem?_set_ne hne, hi]⟩

theorem Proper.named?_setDatabase (hd : d.Proper) (hd' : (d.setDatabase id new).Proper)
    (h : d.database? id = some db) (hn : new.name = db.name) (name : String) :
    (d.setDatabase id new).named? name
      = if name = db.name then some new else d.named? name := by
  obtain ⟨-, hat⟩ := database?_eq_some h
  have hlt := (List.getElem?_eq_some_iff.mp hat).1
  split
  · rename_i he
    exact hd'.named?_eq_some_iff.mpr ⟨List.mem_set hlt new, hn.trans he.symm⟩
  · rename_i he
    refine Option.ext fun x => ?_
    rw [hd'.named?_eq_some_iff, hd.named?_eq_some_iff]
    refine and_congr_left fun hx => ⟨fun hm => ?_, fun hm => ?_⟩
    · exact (mem_setDatabase hm).resolve_left fun hxn => he (by rw [← hx, hxn, hn])
    · exact mem_setDatabase_of_ne h hm fun hxd => he (by rw [← hx, hxd])

/-- The changed database as it is stored: renumbered on a renumbering device. -/
def stored (d : Device) (new : Database) : Database :=
  if d.renumbering then new.renumber (d.renumberBase + renumberStride) else new

theorem mutate_eq (d : Device) (id : DatabaseId) (new : Database) :
    d.mutate id new = { d.setDatabase id (d.stored new) with
      renumberBase := if d.renumbering then d.renumberBase + renumberStride
        else d.renumberBase } := by
  unfold mutate stored
  split <;> rfl

@[simp] theorem bare_stored (d : Device) (new : Database) : (d.stored new).bare = new.bare := by
  unfold stored
  split <;> rfl

@[simp] theorem name_stored (d : Device) (new : Database) : (d.stored new).name = new.name :=
  Database.name_of_bare (bare_stored d new)

theorem Room.toNat_base {n : Nat} (hr : d.Room (n + 1)) (hren : d.renumbering = true)
    (hdb : db ∈ d.databases) :
    (d.renumberBase + renumberStride).toNat = d.renumberBase.toNat + 1000 := by
  have hlt : d.renumberBase.toNat + 1000 < UInt32.size := by
    have := hr.base hren db hdb
    omega
  have hs : renumberStride.toNat = 1000 := rfl
  rw [UInt32.toNat_add, hs]
  exact Nat.mod_eq_of_lt hlt

/-- Moving to fresh slots keeps the records and their order. -/
theorem values_stored {n : Nat} (hr : d.Room (n + 1)) (hdb : db ∈ d.databases)
    (hs : new.records.size ≤ db.records.size + 1) :
    (d.stored new).records.values = new.records.values := by
  unfold stored
  split
  · rename_i hren
    refine Slots.values_numbered ?_
    have hb := hr.base hren db hdb
    rw [hr.toNat_base hren hdb, Slots.length_values]
    omega
  · rfl

theorem database?_mutate (h : d.database? id = some db) (other : DatabaseId) :
    (d.mutate id new).database? other
      = if other = id then some (d.stored new) else d.database? other := by
  rw [mutate_eq]
  exact database?_setDatabase h other

theorem Proper.mutate {n : Nat} (hd : d.Proper) (hr : d.Room (n + 1))
    (h : d.database? id = some db) (hn : new.name = db.name)
    (hs : new.records.size ≤ db.records.size + 1) (hu : new.uniqueIds.Nodup)
    (ho : ∀ r ∈ new.records.values, r.database = new.name) : (d.mutate id new).Proper := by
  have hv := values_stored hr (database?_mem h) hs
  have hset : (d.setDatabase id (d.stored new)).Proper := by
    refine hd.setDatabase h (by simp [hn]) ?_ ?_
    · rwa [Database.uniqueIds, hv]
    · rwa [hv, name_stored]
  rw [mutate_eq]
  exact ⟨hset.1, hset.2, hset.3, hset.4⟩

theorem Proper.named?_mutate (hd : d.Proper) (hd' : (d.mutate id new).Proper)
    (h : d.database? id = some db) (hn : new.name = db.name) (name : String) :
    (d.mutate id new).named? name
      = if name = db.name then some (d.stored new) else d.named? name := by
  rw [mutate_eq] at hd' ⊢
  exact hd.named?_setDatabase ⟨hd'.1, hd'.2, hd'.3, hd'.4⟩ h (by simp [hn]) name

@[simp] theorem linkBroken_mutate (d : Device) (id : DatabaseId) (new : Database) :
    (d.mutate id new).linkBroken = d.linkBroken := by
  rw [mutate_eq]
  rfl

theorem Room.mutate {n : Nat} (hr : d.Room (n + 1)) (h : d.database? id = some db)
    (hs : new.records.size ≤ db.records.size + 1)
    (hk : ∀ k ∈ new.records.keys, k.toNat + n < UInt32.size) : (d.mutate id new).Room n := by
  have hdb := database?_mem h
  rw [mutate_eq]
  refine ⟨by have := hr.few; omega, fun x hx k hkx => ?_, fun hren x hx => ?_⟩
  · rcases mem_setDatabase hx with rfl | hx
    · by_cases hren : d.renumbering = true
      · rw [stored, if_pos hren] at hkx
        have hb := hr.base hren db hdb
        have hbase := hr.toNat_base hren hdb
        have hlt := (Slots.keys_numbered (by rw [hbase, Slots.length_values]; omega) k hkx).2
        rw [hbase, Slots.length_values] at hlt
        omega
      · rw [stored, if_neg hren] at hkx
        exact hk k hkx
    · have := hr.slots x hx k hkx
      omega
  · change d.renumbering = true at hren
    have hbase := hr.toNat_base hren hdb
    simp only [hren, if_true, hbase]
    rcases mem_setDatabase hx with rfl | hx
    · have hb := hr.base hren db hdb
      have hsz : (d.stored new).records.size = new.records.size := by
        rw [← Slots.length_values, values_stored hr hdb hs, Slots.length_values]
      rw [hsz]
      omega
    · have hb := hr.base hren x hx
      omega

end change

/-! ## Commands -/

/-- Why the database does not hand out its slot table, if it does not. -/
def Database.tableRefusal (db : Database) : Option Error :=
  if db.refusingSlotTable then some (.rejected s!"state table of {db.name} unavailable") else none

/-- Why the database takes no new record at all, if it takes none. -/
def Database.growthRefusal (db : Database) : Option Error :=
  db.writeRefusal.or <|
    if db.failingAdds then some (.rejected s!"add to {db.name} refused") else none

/-- Why the faults of the database have it refuse a command, if they do. -/
def Database.refusal (db : Database) : Command → Option Error
  | .slotTable _ => db.tableRefusal
  | .addRecord _ _ => db.growthRefusal
  | .writeRecord _ _ _ | .deleteRecord _ _ | .clearDatabase _ => db.writeRefusal
  | .catalog | .databaseId _ | .readRecord _ _ => none

/-- A record of the database is stored as it is. -/
theorem inDatabase_eq_self {r : Record} {name : String} (h : r.database = name) :
    r.inDatabase name = r := by
  rw [Record.inDatabase, ← h]

section commands
variable {d : Device} {id : DatabaseId} {db : Database} {e : Error} {c : Command}

theorem reach_eq (hl : d.linkBroken = false) (h : d.database? id = some db) :
    d.reach id = .ok db := by
  simp [reach, hl, h]

theorem Database.Willing.writeRefusal (hw : db.Willing) : db.writeRefusal = none := by
  simp [Database.writeRefusal, hw.readOnly, hw.failing]

theorem Database.Willing.tableRefusal (hw : db.Willing) : db.tableRefusal = none := by
  simp [Database.tableRefusal, hw.refusingSlotTable]

theorem Database.Willing.growthRefusal (hw : db.Willing) : db.growthRefusal = none := by
  simp [Database.growthRefusal, hw.writeRefusal, hw.failingAdds]

theorem mem_uniqueIds {u : UniqueId} :
    u ∈ db.uniqueIds ↔ ∃ r ∈ db.records.values, r.uniqueId = u := List.mem_map

/-- Apart from its faults, the only reason a database has not to take a record is that it has its
id. -/
theorem Database.addRefusal_eq (hg : db.growthRefusal = none) (r : Record) :
    db.addRefusal r = if r.uniqueId ∈ db.uniqueIds
      then some (.rejected s!"duplicate unique ID {r.uniqueId.show}") else none := by
  have hiff : db.records.values.any (·.uniqueId == r.uniqueId) = true ↔
      r.uniqueId ∈ db.uniqueIds := by
    simp [List.any_eq_true, mem_uniqueIds]
  rw [Database.growthRefusal, Option.or_eq_none_iff] at hg
  have hadds : db.failingAdds = false := by simpa using hg.2
  simp only [Database.addRefusal, hg.1, hadds, Option.none_or, Bool.false_eq_true, if_false, hiff]

/-- The records play no part. -/
theorem Database.refusal_of_bare {new : Database} (h : new.bare = db.bare) :
    new.refusal c = db.refusal c := by
  have hbare : ∀ x : Database, x.refusal c = x.bare.refusal c := fun x => by cases c <;> rfl
  rw [hbare, h, ← hbare]

/-- What a fault has refused is not the end of the session. -/
theorem Database.refusal_mild (h : db.refusal c = some e) : e.isFatal = false := by
  have hwrite : db.writeRefusal = some e → e.isFatal = false := fun h => by
    unfold Database.writeRefusal at h
    split at h
    · cases h; rfl
    split at h
    · cases h; rfl
    · cases h
  cases c with
  | slotTable id =>
    simp only [Database.refusal, Database.tableRefusal] at h
    split at h
    · cases h; rfl
    · cases h
  | addRecord id r =>
    rcases Option.or_eq_some_iff.mp h with h | ⟨-, h⟩
    · exact hwrite h
    split at h
    · cases h; rfl
    · cases h
  | writeRecord id slot r => exact hwrite h
  | deleteRecord id slot => exact hwrite h
  | clearDatabase id => exact hwrite h
  | catalog => cases h
  | databaseId name => cases h
  | readRecord id slot => cases h

/-- A command that a fault refuses does nothing. -/
theorem execute_of_refusal (hl : d.linkBroken = false) (hc : c.database? = some id)
    (h : d.database? id = some db) (he : db.refusal c = some e) :
    d.execute c = (.error e, d) := by
  cases c with
  | slotTable _ =>
    cases hc
    simp only [Database.refusal, Database.tableRefusal] at he
    split at he
    · cases he
      simp [execute, reach_eq hl h, *]
    · cases he
  | addRecord _ r =>
    cases hc
    have hadd : db.addRefusal r = some e := by
      simp only [Database.refusal, Database.growthRefusal, Option.or_eq_some_iff] at he
      simp only [Database.addRefusal, Option.or_eq_some_iff]
      refine he.imp_right fun ⟨hnone, he⟩ => ⟨hnone, ?_⟩
      split at he
      · rw [if_pos ‹_›]
        exact he
      · cases he
    simp [execute, reach_eq hl h, hadd]
  | writeRecord _ slot r =>
    cases hc
    have hw : db.writeRefusal = some e := he
    simp [execute, reach_eq hl h, hw]
  | deleteRecord _ slot =>
    cases hc
    have hw : db.writeRefusal = some e := he
    simp [execute, reach_eq hl h, hw]
  | clearDatabase _ =>
    cases hc
    have hw : db.writeRefusal = some e := he
    simp [execute, reach_eq hl h, hw]
  | readRecord _ slot => cases he
  | catalog => cases hc
  | databaseId name => cases hc

theorem slotTable_eq (hl : d.linkBroken = false) (h : d.database? id = some db)
    (ht : db.tableRefusal = none) : d.execute (.slotTable id) = (.ok db.table, d) := by
  have ht : db.refusingSlotTable = false := by simpa [Database.tableRefusal] using ht
  simp [execute, reach_eq hl h, ht]

theorem readRecord_eq (hl : d.linkBroken = false) (h : d.database? id = some db) {slot : Slot}
    {r : Record} (hr : db.records.get? slot = some r) :
    d.execute (.readRecord id slot) = (.ok r, d) := by
  simp [execute, reach_eq hl h, hr]

theorem writeRecord_eq (hl : d.linkBroken = false) (h : d.database? id = some db)
    (hw : db.writeRefusal = none) {slot : Slot} {old : Record}
    (hs : db.records.get? slot = some old) (r : Record) :
    d.execute (.writeRecord id slot r) = (.ok (),
      d.mutate id { db with records := db.records.insert slot (r.inDatabase db.name) }) := by
  simp [execute, reach_eq hl h, hw, hs]

theorem addRecord_eq (hl : d.linkBroken = false) (h : d.database? id = some db)
    (hg : db.growthRefusal = none) {r : Record} (hr : r.uniqueId ∉ db.uniqueIds) :
    d.execute (.addRecord id r) = (.ok (), d.mutate id
      { db with records := db.records.insert db.records.next (r.inDatabase db.name) }) := by
  simp [execute, reach_eq hl h, Database.addRefusal_eq hg, hr]

theorem addRecord_duplicate (hl : d.linkBroken = false) (h : d.database? id = some db)
    (hg : db.growthRefusal = none) {r : Record} (hr : r.uniqueId ∈ db.uniqueIds) :
    d.execute (.addRecord id r)
      = (.error (.rejected s!"duplicate unique ID {r.uniqueId.show}"), d) := by
  simp [execute, reach_eq hl h, Database.addRefusal_eq hg, hr]

theorem deleteRecord_eq (hl : d.linkBroken = false) (h : d.database? id = some db)
    (hw : db.writeRefusal = none) {slot : Slot} {old : Record}
    (hs : db.records.get? slot = some old) :
    d.execute (.deleteRecord id slot) = (.ok (),
      d.mutate id { db with records := db.records.erase slot }) := by
  simp [execute, reach_eq hl h, hw, hs]

theorem clearDatabase_eq (hl : d.linkBroken = false) (h : d.database? id = some db)
    (hw : db.writeRefusal = none) : d.execute (.clearDatabase id)
      = (.ok (), d.setDatabase id { db with records := Slots.empty }) := by
  simp [execute, reach_eq hl h, hw]

end commands

/-! ## What was accepted -/

section accepted
variable {d d' : Device} {id : DatabaseId} {db : Database} {e : Error} {c : Command} {slot : Slot}
  {r : Record}

theorem database?_of_reach (h : d.reach id = .ok db) : d.database? id = some db := by
  unfold reach at h
  split at h
  · cases h
  · split at h
    · rename_i x hx
      rwa [← Except.ok.inj h]
    · cases h

/-- A refused command changes nothing but the transcript. -/
theorem execute_refused (h : d.execute c = (.error e, d')) : d' = d := by
  cases c <;> simp only [execute] at h <;> (repeat' split at h) <;> simp_all

theorem writeRecord_accepted
    (h : d.execute (.writeRecord id slot r) = (.ok (), d')) :
    ∃ db old, d.database? id = some db ∧ db.records.get? slot = some old ∧
      d' = d.mutate id { db with records := db.records.insert slot (r.inDatabase db.name) } := by
  simp only [execute] at h
  split at h
  · cases h
  rename_i db hreach
  split at h
  · cases h
  split at h
  · cases h
  · rename_i old hold
    exact ⟨db, old, database?_of_reach hreach, hold, (Prod.mk.inj h).2.symm⟩

theorem addRecord_accepted (h : d.execute (.addRecord id r) = (.ok (), d')) :
    ∃ db, d.database? id = some db ∧ r.uniqueId ∉ db.uniqueIds ∧ d' = d.mutate id
      { db with records := db.records.insert db.records.next (r.inDatabase db.name) } := by
  simp only [execute] at h
  split at h
  · cases h
  rename_i db hreach
  split at h
  · cases h
  rename_i hrefusal
  refine ⟨db, database?_of_reach hreach, fun hmem => ?_, (Prod.mk.inj h).2.symm⟩
  have hany : db.records.values.any (·.uniqueId == r.uniqueId) = true := by
    simpa [List.any_eq_true, mem_uniqueIds] using hmem
  simp only [Database.addRefusal, hany, if_true] at hrefusal
  cases hw : db.writeRefusal <;> cases hf : db.failingAdds <;> simp [hw, hf] at hrefusal

theorem deleteRecord_accepted
    (h : d.execute (.deleteRecord id slot) = (.ok (), d')) :
    ∃ db old, d.database? id = some db ∧ db.records.get? slot = some old ∧
      d' = d.mutate id { db with records := db.records.erase slot } := by
  simp only [execute] at h
  split at h
  · cases h
  rename_i db hreach
  split at h
  · cases h
  split at h
  · cases h
  · rename_i old hold
    exact ⟨db, old, database?_of_reach hreach, hold, (Prod.mk.inj h).2.symm⟩

theorem clearDatabase_accepted (h : d.execute (.clearDatabase id) = (.ok (), d')) :
    ∃ db, d.database? id = some db ∧
      d' = d.setDatabase id { db with records := Slots.empty } := by
  simp only [execute] at h
  split at h
  · cases h
  rename_i db hreach
  split at h
  · cases h
  · exact ⟨db, database?_of_reach hreach, (Prod.mk.inj h).2.symm⟩

theorem execute_of_not_isMutation (hc : c.isMutation = false) : (d.execute c).2 = d := by
  cases c <;> (try cases hc) <;> simp only [execute] <;> (repeat' split) <;> rfl

/-- A command changes one database at most, and that in its records alone. -/
theorem execute_cases (d : Device) (c : Command) : (d.execute c).2 = d ∨
    ∃ id db new, d.database? id = some db ∧ new.bare = db.bare ∧
      ((d.execute c).2 = d.setDatabase id new ∨ (d.execute c).2 = d.mutate id new) := by
  cases hc : c.isMutation with
  | false => exact Or.inl (execute_of_not_isMutation hc)
  | true =>
    rcases hrun : d.execute c with ⟨e | answer, d'⟩
    · exact Or.inl (execute_refused hrun)
    cases c with
    | writeRecord id slot r =>
      obtain ⟨db, -, hdb, -, rfl⟩ := writeRecord_accepted hrun
      refine Or.inr ⟨id, db, _, hdb, ?_, Or.inr rfl⟩
      rfl
    | addRecord id r =>
      obtain ⟨db, hdb, -, rfl⟩ := addRecord_accepted hrun
      refine Or.inr ⟨id, db, _, hdb, ?_, Or.inr rfl⟩
      rfl
    | deleteRecord id slot =>
      obtain ⟨db, -, hdb, -, rfl⟩ := deleteRecord_accepted hrun
      refine Or.inr ⟨id, db, _, hdb, ?_, Or.inr rfl⟩
      rfl
    | clearDatabase id =>
      obtain ⟨db, hdb, rfl⟩ := clearDatabase_accepted hrun
      refine Or.inr ⟨id, db, _, hdb, ?_, Or.inl rfl⟩
      rfl
    | catalog => cases hc
    | databaseId name => cases hc
    | slotTable id => cases hc
    | readRecord id slot => cases hc

end accepted

end Palmtop.Device
