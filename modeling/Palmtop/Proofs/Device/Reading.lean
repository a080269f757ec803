import Palmtop.Device.Reader
import Palmtop.Proofs.Device.Commands
import Palmtop.Proofs.Transfer

/-! # What a reader hands out

Over a device that is ready, a reader hands out the records of its databases one database after the
other, each in slot order, and leaves nothing behind but the transcript (`yields_ofNames`).
-/
namespace Palmtop.Device

/-- All records, in the order of the catalog. -/
def allRecords (d : Device) : List Record := d.databases.flatMap (·.records.values)

variable {d d' : Device} {n : Nat} {db : Database}

/-- The databases of the catalog, one after the other, hold all records. -/
theorem Proper.flatMap_contents (hd : d.Proper) :
    (d.listing.map (·.name)).flatMap d.contents = d.allRecords := by
  rw [listing, List.map_map, List.flatMap_map, allRecords]
  refine List.flatMap_congr fun db hdb => ?_
  exact contents_of_named? (hd.named?_eq_some_iff.mpr ⟨hdb, rfl⟩)

/-- The records of one database among all of them. -/
theorem Proper.filter_allRecords (hd : d.Proper) (name : String) :
    d.allRecords.filter (·.database = name) = d.contents name := by
  have hvalues : ∀ db ∈ d.databases, db.records.values.filter (·.database = name)
      = if db.name = name then db.records.values else [] := fun db hdb => by
    split
    · rename_i he
      exact List.filter_eq_self.mpr fun r hr => by simp [hd.owned db hdb r hr, he]
    · rename_i he
      exact List.filter_eq_nil_iff.mpr fun r hr => by simp [hd.owned db hdb r hr, he]
  rw [allRecords, List.filter_flatMap, List.flatMap_congr hvalues]
  have hnames := hd.names
  rw [contents, named?]
  -- at most one of the databases has the name
  generalize d.databases = dbs at hnames
  induction dbs with
  | nil => rfl
  | cons db dbs ih =>
    rw [List.map_cons, List.nodup_cons] at hnames
    rw [List.flatMap_cons, List.find?_cons]
    by_cases he : db.name = name
    · have hrest : dbs.flatMap (fun x => if x.name = name then x.records.values else []) = [] := by
        rw [List.flatMap_eq_nil_iff]
        intro x hx
        rw [if_neg fun hxn => hnames.1 (by rw [he, ← hxn]; exact List.mem_map_of_mem hx)]
      simp [he, hrest]
    · have hne : (db.name == name) = false := by simpa using he
      rw [if_neg he, List.nil_append, ih hnames.2, hne]

/-- The records of one database follow one another. -/
theorem Proper.grouped_allRecords (hd : d.Proper) : Grouped d.allRecords := by
  have hnames := hd.names
  have howned := hd.owned
  rw [allRecords]
  generalize d.databases = dbs at hnames howned
  induction dbs with
  | nil => trivial
  | cons db dbs ih =>
    rw [List.map_cons, List.nodup_cons] at hnames
    have hrest : ∀ x ∈ dbs, ∀ r ∈ x.records.values, r.database = x.name := fun x hx =>
      howned x (List.mem_cons_of_mem _ hx)
    rw [List.flatMap_cons]
    refine Grouped.append (howned db List.mem_cons_self) (fun r hr he => ?_) (ih hnames.2 hrest)
    obtain ⟨x, hx, hxr⟩ := List.mem_flatMap.mp hr
    exact hnames.1 (he ▸ hrest x hx r hxr ▸ List.mem_map_of_mem hx)

theorem Proper.uniqueIds_contents_nodup (hd : d.Proper) (name : String) :
    ((d.contents name).map (·.uniqueId)).Nodup := by
  cases hdb : d.named? name with
  | none =>
    rw [contents_of_not_named hdb]
    exact List.nodup_nil
  | some db =>
    rw [contents_of_named? hdb]
    exact hd.uniqueIds db (named?_mem hdb).1

namespace Reader

/-- A reader that is in no database any more, or at the end of one, goes on to the next. -/
def IsBetween (r : Reader) (names : List String) : Prop :=
  r.ended = false ∧ r.databases = names ∧ ∀ c ∈ r.cursor, c.pending = []

theorem next_between {σ : Type} {session : Session σ} {r : Reader} {names : List String}
    (h : r.IsBetween names) (s : σ) : next session r s = advance session names s := by
  obtain ⟨hended, rfl, hcursor⟩ := h
  rw [next, hended, if_neg Bool.false_ne_true]
  split
  · rename_i database id slot pending hc
    exact absurd (hcursor _ hc) (by simp)
  · rfl

/-- Entering a database is reading on at its first slot. -/
theorem advance_cons {σ : Type} {session : Session σ} {name : String} {names : List String}
    {s s₁ s₂ : σ} {id : DatabaseId} {table : SlotTable}
    (hid : session.databaseId name s = (.ok id, s₁))
    (htable : session.slotTable id s₁ = (.ok table, s₂)) :
    advance session (name :: names) s
      = next session { databases := names, cursor := some ⟨name, id, table.slots⟩ } s₂ := by
  simp only [advance, hid, htable, next, Bool.false_eq_true, if_false]
  cases table.slots <;> rfl

/-- What is left of a database, and then whatever follows. -/
theorem yields_pending {id : DatabaseId} (hdb : d.database? id = some db) (hd : d.Ready n)
    {names : List String} {tail : List Record}
    (htail : ∀ r after, r.IsBetween names → d.Observed after →
      ∃ r' d', (producer session).Yields (r, after) tail (r', d') ∧ d.Observed d')
    (database : String) (slots : List Slot) (rs : List Record)
    (hslots : slots.map db.records.get? = rs.map some) {after : Device}
    (hafter : d.Observed after) :
    ∃ r' d', (producer session).Yields
      ({ databases := names, cursor := some ⟨database, id, slots⟩ }, after) (rs ++ tail) (r', d') ∧
      d.Observed d' := by
  induction slots generalizing rs after with
  | nil =>
    obtain rfl : rs = [] := by simpa using hslots.symm
    exact htail _ after ⟨rfl, rfl, by simp⟩ hafter
  | cons slot slots ih =>
    obtain ⟨r, rs, rfl⟩ : ∃ r rs', rs = r :: rs' := by
      cases rs with
      | nil => simp at hslots
      | cons r rs => exact ⟨r, rs, rfl⟩
    obtain ⟨hslot, hrest⟩ := List.cons.inj hslots
    obtain ⟨e, hread⟩ := (hafter.sound hd.sound).readRecord (hafter.database? ▸ hdb) hslot
    obtain ⟨r', d', hy, hd'⟩ := ih rs hrest (hafter.logged e)
    exact ⟨r', d', .cons rfl (by simp only [producer, next, hread]; rfl) hy, hd'⟩

theorem yields_between {names : List String} (hd : d.Ready n)
    (hnames : ∀ name ∈ names, d.named? name ≠ none) (r : Reader) (hr : r.IsBetween names)
    {after : Device} (hafter : d.Observed after) :
    ∃ r' d', (producer session).Yields (r, after) (names.flatMap d.contents) (r', d') ∧
      d.Observed d' := by
  induction names generalizing r after with
  | nil =>
    exact ⟨{ databases := [], ended := true }, after,
      .exhausted hr.1 (next_between hr after) rfl, hafter⟩
  | cons name names ih =>
    -- entering the database is reading on at its first slot, and then its records come first
    obtain ⟨db, hdb⟩ := Option.ne_none_iff_exists'.mp (hnames name List.mem_cons_self)
    have hrest := @ih fun x hx => hnames x (List.mem_cons_of_mem _ hx)
    obtain ⟨id, e₁, hid, hat⟩ := (hafter.sound hd.sound).databaseId (hafter.named? ▸ hdb)
    obtain ⟨e₂, htable⟩ := ((hafter.logged e₁).sound hd.sound).slotTable hat
      (hd.willing_database hdb).tableRefusal
    have hslots : db.table.slots = db.records.keys := Slots.keys_map _ _
    obtain ⟨r', d', hy, hd'⟩ := yields_pending (hafter.database? ▸ hat) hd
      (fun r _ hr => hrest r hr) name db.records.keys db.records.values db.records.map_get?_keys
      ((hafter.logged e₁).logged e₂)
    refine ⟨r', d', ?_, hd'⟩
    rw [List.flatMap_cons, contents_of_named? hdb]
    refine hy.of_next_eq hr.1 rfl ?_
    exact (next_between hr after).trans (hslots ▸ advance_cons hid htable)

/-- A reader over databases the device has. -/
theorem yields_ofNames {names : List String} (hd : d.Ready n)
    (hnames : ∀ name ∈ names, d.named? name ≠ none) :
    ∃ r' d', (producer session).Yields (ofNames names, d) (names.flatMap d.contents) (r', d') ∧
      d.Observed d' :=
  yields_between hd hnames _ ⟨rfl, rfl, by simp [ofNames]⟩ (observed_self d)

/-- A reader over the whole catalog. -/
theorem yields_catalog (hd : d.Ready n) :
    ∃ r' d', (producer session).Yields (ofNames (d.listing.map (·.name)), d) d.allRecords (r', d') ∧
      d.Observed d' := by
  rw [← hd.proper.flatMap_contents]
  refine yields_ofNames hd fun name hname => ?_
  rw [listing, List.map_map] at hname
  exact fun hnone => named?_eq_none_iff.mp hnone hname

end Reader

end Palmtop.Device
