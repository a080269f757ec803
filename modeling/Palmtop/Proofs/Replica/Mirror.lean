import Mathlib.Data.List.Perm.Basic
import Palmtop.Proofs.Device.SlotTable
import Palmtop.Proofs.Replica.Hosting
import Palmtop.Replica.Basic

/-! # A replica mirrors its database

Whatever commands are refused, an edit leaves the replica with exactly the records the database has,
and with their slots whenever the slot table was fetched last.  The invariant is `InStep`.

Between an accepted mutation and the end of its edit the replica lags behind.  What holds it
together is that folding a record into the entries and fetching the table can be exchanged: an
entry put in behind the fetch, at the slot found for it, is the entry put in before, at any slot, and
moved (`Covers.moved`).
-/
namespace Palmtop.Device

/-- Whether the command fetches a slot table. -/
def Command.isFetch : Command → Bool
  | .slotTable _ => true
  | _ => false

/-- Whether the latest fetch of a slot table was accepted, if there was one. -/
def lastFetch (transcript : List Exchange) : Option Bool :=
  (transcript.find? (·.command.isFetch)).map (·.accepted)

end Palmtop.Device

namespace Palmtop.Replica
open Device

variable {σ : Type} {session : Session σ} {name : String} {id : DatabaseId}
  {view : σ → Slots Record} {r : Replica} {s s' : σ × List Exchange} {records : Slots Record}

/-- The replica has the records of its database, no two of one id. -/
structure Covers (name : String) (id : DatabaseId) (r : Replica) (records : Slots Record) :
    Prop where
  sameName : r.name = name
  sameId : r.id = id
  complete : (r.entries.map (·.record)).Perm records.values
  distinct : (records.values.map (·.uniqueId)).Nodup

/-- The replica has the records and, unless it is stale, their slots. -/
structure InStep (name : String) (id : DatabaseId) (view : σ → Slots Record) (r : Replica)
    (s : σ × List Exchange) : Prop where
  covers : Covers name id r (view s.1)
  table : r.stale = false → r.table.ids = (view s.1).map (·.uniqueId)
  slots : r.stale = false → ∀ e ∈ r.entries, (view s.1).get? e.slot = some e.record
  fetched : lastFetch s.2 = some true → r.stale = false

theorem Covers.uniqueIds_nodup (h : Covers name id r records) :
    (r.entries.map (·.uniqueId)).Nodup := by
  have hperm := h.complete.map (·.uniqueId)
  rw [List.map_map] at hperm
  exact hperm.nodup_iff.mpr h.distinct

/-! ## Slots that are found -/

/-- The table of a database finds each of its records. -/
theorem slotOf?_of_mem {table : SlotTable} (ht : table.ids = records.map (·.uniqueId))
    (hn : (records.values.map (·.uniqueId)).Nodup) {x : Record} (hx : x ∈ records.values) :
    ∃ slot, table.slotOf? x.uniqueId = some slot ∧ records.get? slot = some x := by
  cases hs : table.slotOf? x.uniqueId with
  | none =>
    rw [SlotTable.slotOf?_eq_none_iff, ht, Slots.values_map] at hs
    exact absurd (List.mem_map_of_mem hx) hs
  | some slot =>
    refine ⟨slot, rfl, ?_⟩
    obtain ⟨y, hy, hid⟩ := Slots.get?_map_eq_some (ht ▸ SlotTable.slotOf?_eq_some hs)
    rw [hy, List.inj_on_of_nodup_map hn (Slots.mem_values_of_get? hy) hx hid]

/-- Behind the fetch of the table an entry is where its record is. -/
theorem get?_relocate {table : SlotTable} (ht : table.ids = records.map (·.uniqueId))
    (hn : (records.values.map (·.uniqueId)).Nodup) {e : Entry} (he : e.record ∈ records.values) :
    records.get? (e.relocate table).slot = some e.record := by
  obtain ⟨slot, hslot, hget⟩ := slotOf?_of_mem ht hn he
  have hslot : table.slotOf? e.uniqueId = some slot := hslot
  rw [Entry.relocate, hslot]
  exact hget

/-- The replica behind the fetch of this table. -/
def moved (r : Replica) (table : SlotTable) : Replica :=
  { r with table, entries := r.entries.map (·.relocate table), stale := false }

theorem Covers.moved (h : Covers name id r (view s.1)) {table : SlotTable}
    (ht : table.ids = (view s.1).map (·.uniqueId)) : InStep name id view (r.moved table) s where
  covers := ⟨h.sameName, h.sameId, by simpa [Replica.moved, Function.comp_def] using h.complete,
    h.distinct⟩
  table _ := ht
  slots _ e he := by
    obtain ⟨x, hx, rfl⟩ := List.mem_map.mp he
    exact get?_relocate ht h.distinct (h.complete.subset (List.mem_map_of_mem hx))
  fetched _ := rfl

theorem Covers.stale (h : Covers name id r (view s.1)) (hs : r.stale = true)
    (hf : lastFetch s.2 = some false) : InStep name id view r s where
  covers := h
  table hn := by rw [hs] at hn; cases hn
  slots hn := by rw [hs] at hn; cases hn
  fetched hn := by rw [hf] at hn; cases hn

/-! ## Commands behind a transcript -/

theorem lastFetch_cons_of_not {x : Exchange} {l : List Exchange} (h : x.command.isFetch = false) :
    lastFetch (x :: l) = lastFetch l := by
  rw [lastFetch, lastFetch, List.find?_cons_of_neg (by simp [h])]

/-- A command that fetches no table and changes no record. -/
theorem InStep.of_run (h : InStep name id view r s) {c : Command}
    {answer : Except Device.Error c.Answer}
    (hrun : session.recorded.run c s = (answer, s')) (hc : c.isFetch = false)
    (hv : view s'.1 = view s.1) : InStep name id view r s' := by
  have hf : lastFetch s'.2 = lastFetch s.2 := by
    rw [(of_recorded hrun).2]
    exact lastFetch_cons_of_not hc
  exact ⟨hv ▸ h.covers, hv ▸ h.table, hv ▸ h.slots, hf ▸ h.fetched⟩

/-- A table is fetched, or the replica counts as stale. -/
theorem refresh_cases (hosts : Hosts session name id view) (hid : r.id = id)
    (s : σ × List Exchange) :
    (∃ e s', r.refresh session.recorded s = (.error e, { r with stale := true }, s') ∧
      view s'.1 = view s.1 ∧ lastFetch s'.2 = some false) ∨
    ∃ table s', r.refresh session.recorded s = (.ok (), r.moved table, s') ∧
      view s'.1 = view s.1 ∧ table.ids = (view s'.1).map (·.uniqueId) := by
  cases hrun : session.recorded.slotTable r.id s with
  | mk answer s' =>
    cases answer with
    | error e =>
      refine Or.inl ⟨.ofDevice e, s', by simp only [refresh, hrun], hosts.recorded.refused hrun, ?_⟩
      rw [(of_recorded hrun).2]
      rfl
    | ok fresh =>
      obtain ⟨hids, hv⟩ := hosts.recorded.slotTable (hid ▸ hrun)
      exact Or.inr ⟨r.table.refresh fresh, s', by simp only [refresh, hrun, Replica.moved], hv,
        by rw [SlotTable.ids_refresh, hids, hv]⟩

/-- Whether the table can be fetched or not, a replica with the right records ends in step. -/
theorem refresh_inStep (hosts : Hosts session name id view) (h : Covers name id r (view s.1)) :
    ∃ answer r' s', r.refresh session.recorded s = (answer, r', s') ∧
      InStep name id view r' s' ∧ view s'.1 = view s.1 ∧ (answer = .ok () → r'.stale = false) := by
  rcases refresh_cases hosts h.sameId s with ⟨e, s', hrun, hv, hf⟩ | ⟨table, s', hrun, hv, ht⟩
  · exact ⟨_, _, s', hrun, Covers.stale (hv ▸ ⟨h.1, h.2, h.3, h.4⟩) rfl hf, hv, nofun⟩
  · exact ⟨_, _, s', hrun, Covers.moved (hv ▸ h) ht, hv, fun _ => rfl⟩

/-- Behind an accepted mutation the table is fetched and has the record, or cannot be fetched. -/
theorem settle_cases (hosts : Hosts session name id view) (hid : r.id = id)
    {s : σ × List Exchange} (hn : ((view s.1).values.map (·.uniqueId)).Nodup) {x : Record}
    (hx : x ∈ (view s.1).values) :
    (∃ e s', r.settle session.recorded x.uniqueId s
        = (.ok ⟨r.table.slotOf? x.uniqueId, some e⟩, { r with stale := true }, s') ∧
      view s'.1 = view s.1 ∧ lastFetch s'.2 = some false) ∨
    ∃ table slot s', r.settle session.recorded x.uniqueId s
        = (.ok ⟨some slot, none⟩, r.moved table, s') ∧
      view s'.1 = view s.1 ∧ table.ids = (view s'.1).map (·.uniqueId) ∧
      table.slotOf? x.uniqueId = some slot := by
  rcases refresh_cases hosts hid s with ⟨e, s', hrun, hv, hf⟩ | ⟨table, s', hrun, hv, ht⟩
  · exact Or.inl ⟨e, s', by simp only [settle, hrun], hv, hf⟩
  · obtain ⟨slot, hslot, -⟩ := slotOf?_of_mem ht (hv ▸ hn) (hv ▸ hx)
    have hmoved : (r.moved table).table.slotOf? x.uniqueId = some slot := hslot
    exact Or.inr ⟨table, slot, s', by simp only [settle, hrun, hmoved], hv, ht, hslot⟩

/-- The slot found for an id is that of its record. -/
theorem InStep.found (h : InStep name id view r s) (hs : r.stale = false) {u : UniqueId}
    {slot : Slot} (hslot : r.table.slotOf? u = some slot) :
    ∃ old, (view s.1).get? slot = some old ∧ old.uniqueId = u :=
  Slots.get?_map_eq_some (h.table hs ▸ SlotTable.slotOf?_eq_some hslot)

theorem currentSlot_spec (hosts : Hosts session name id view) (h : InStep name id view r s)
    (u : UniqueId) :
    ∃ answer r' s', r.currentSlot session.recorded u s = (answer, r', s') ∧
      InStep name id view r' s' ∧ ∀ slot, answer = .ok slot →
        r'.stale = false ∧ ∃ old, (view s'.1).get? slot = some old ∧ old.uniqueId = u := by
  cases hs : r.stale with
  | false =>
    cases hslot : r.table.slotOf? u with
    | none =>
      refine ⟨.error (.staleEntry u), r, s, by simp [currentSlot, hs, hslot], h, fun _ hx => ?_⟩
      cases hx
    | some slot =>
      refine ⟨.ok slot, r, s, by simp [currentSlot, hs, hslot], h, fun _ hx => ⟨hs, ?_⟩⟩
      rw [← Except.ok.inj hx]
      exact h.found hs hslot
  | true =>
    -- the entries are not moved by an answer that fails, and are in step all the same
    obtain ⟨answer, r', s', hrun, hin, -, hfresh⟩ := refresh_inStep hosts h.covers
    cases answer with
    | error e =>
      refine ⟨.error e, r', s', by simp [currentSlot, hs, hrun], hin, fun _ hx => ?_⟩
      cases hx
    | ok =>
      cases hslot : r'.table.slotOf? u with
      | none =>
        refine ⟨.error (.staleEntry u), r', s', by simp [currentSlot, hs, hrun, hslot], hin,
          fun _ hx => ?_⟩
        cases hx
      | some slot =>
        refine ⟨.ok slot, r', s', by simp [currentSlot, hs, hrun, hslot], hin,
          fun _ hx => ⟨hfresh rfl, ?_⟩⟩
        rw [← Except.ok.inj hx]
        exact hin.found (hfresh rfl) hslot

/-! ## Folding a record in -/

theorem relocate_of_slotOf? {table : SlotTable} {x : Record} {slot : Slot}
    (h : table.slotOf? x.uniqueId = some slot) (old : Slot) :
    Entry.relocate table ⟨old, x⟩ = ⟨slot, x⟩ := by
  have h : table.slotOf? (Entry.uniqueId ⟨old, x⟩) = some slot := h
  rw [Entry.relocate, h]
  rfl

/-- A record the device has accepted is settled and folded into the entries by `fold`; it does not
matter at which slot, and if behind the fetch or before it. -/
theorem settle_inStep (hosts : Hosts session name id view) {x : Record}
    (hx : x ∈ (view s.1).values) (fold : Entry → List Entry → List Entry)
    (hcovers : ∀ slot, Covers name id { r with entries := fold ⟨slot, x⟩ r.entries } (view s.1))
    (hfold : ∀ (table : SlotTable) (e : Entry) (l : List Entry),
      (fold e l).map (·.relocate table) = fold (e.relocate table) (l.map (·.relocate table)))
    (old : Slot) :
    ∃ settled r' s', r.settle session.recorded x.uniqueId s = (.ok settled, r', s') ∧
      InStep name id view
        { r' with entries := fold ⟨settled.slot.getD old, x⟩ r'.entries } s' := by
  have hid : r.id = id := (hcovers 0).sameId
  rcases settle_cases hosts hid (hcovers 0).distinct hx with
    ⟨e, s', hrun, hv, hf⟩ | ⟨table, slot, s', hrun, hv, ht, hslot⟩
  · -- the replica stays stale, so that no slot is promised for the new entry
    obtain ⟨h1, h2, h3, h4⟩ := hcovers ((r.table.slotOf? x.uniqueId).getD old)
    exact ⟨_, _, s', hrun, Covers.stale ⟨h1, h2, hv ▸ h3, hv ▸ h4⟩ rfl hf⟩
  · -- fold first and move then: by `hfold` this is the order the code has
    have hmoved := Covers.moved (hv ▸ hcovers old) ht
    refine ⟨_, _, s', hrun, ?_⟩
    rw [moved, hfold, relocate_of_slotOf? hslot] at hmoved
    exact hmoved

/-! ## Entries behind an accepted mutation -/

theorem Covers.added (h : Covers name id r records) {after : Slots Record} {x : Record}
    {slot : Slot} {entries : List Entry} (hnew : x.uniqueId ∉ records.values.map (·.uniqueId))
    (hafter : after.values.Perm (x :: records.values))
    (hentries : entries.Perm (⟨slot, x⟩ :: r.entries)) :
    Covers name id { r with entries } after where
  sameName := h.sameName
  sameId := h.sameId
  complete := (hentries.map _).trans ((h.complete.cons x).trans hafter.symm)
  distinct := (hafter.map _).nodup_iff.mpr (List.nodup_cons.mpr ⟨hnew, h.distinct⟩)

/-- In place of the one entry of its id. -/
theorem map_record_putBack {e : Entry} {l : List Entry} (hn : (l.map (·.uniqueId)).Nodup) :
    (putBack e l).map (·.record)
      = (l.map (·.record)).map fun x => if x.uniqueId = e.uniqueId then e.record else x := by
  induction l with
  | nil => rfl
  | cons y l ih =>
    obtain ⟨hy, hl⟩ := List.nodup_cons.mp hn
    by_cases he : y.uniqueId = e.uniqueId
    · have hrest : ∀ x ∈ l.map (·.record),
          (if x.uniqueId = e.uniqueId then e.record else x) = x := by
        intro x hx
        obtain ⟨z, hz, rfl⟩ := List.mem_map.mp hx
        exact if_neg fun h => hy (List.mem_map.mpr ⟨z, hz, h.trans he.symm⟩)
      have hy : y.record.uniqueId = e.uniqueId := he
      rw [putBack, if_pos he, List.map_cons, List.map_cons, List.map_cons, if_pos hy,
        List.map_congr_left hrest, List.map_id']
    · have hy : ¬ y.record.uniqueId = e.uniqueId := he
      rw [putBack, if_neg he, List.map_cons, ih hl, List.map_cons, List.map_cons, if_neg hy]

theorem map_relocate_putBack (table : SlotTable) (e : Entry) (l : List Entry) :
    (putBack e l).map (·.relocate table)
      = putBack (e.relocate table) (l.map (·.relocate table)) := by
  induction l with
  | nil => rfl
  | cons y l ih =>
    by_cases he : y.uniqueId = e.uniqueId
    · have hy : (y.relocate table).uniqueId = (e.relocate table).uniqueId := he
      rw [putBack, if_pos he, List.map_cons, List.map_cons, putBack, if_pos hy]
    · have hy : ¬ (y.relocate table).uniqueId = (e.relocate table).uniqueId := he
      rw [putBack, if_neg he, List.map_cons, List.map_cons, putBack, if_neg hy, ih]

theorem Covers.overwritten (h : Covers name id r records) {after : Slots Record} {e : Entry}
    (hafter : after.values.Perm
      (records.values.map fun y => if y.uniqueId = e.uniqueId then e.record else y)) :
    Covers name id { r with entries := putBack e r.entries } after where
  sameName := h.sameName
  sameId := h.sameId
  complete := by
    rw [map_record_putBack h.uniqueIds_nodup]
    exact (h.complete.map _).trans hafter.symm
  distinct := by
    -- the record put in has the id of the one it replaces
    have hids : (records.values.map fun y => if y.uniqueId = e.uniqueId then e.record else y).map
        (·.uniqueId) = records.values.map (·.uniqueId) :=
      Slots.map_key_overwriting Record.uniqueId e.record records.values
    exact (hafter.map _).nodup_iff.mpr (hids ▸ h.distinct)

theorem Covers.erased (h : Covers name id r records) {after : Slots Record} {u : UniqueId}
    {entries : List Entry}
    (hafter : after.values.Perm (records.values.filter fun x => x.uniqueId ≠ u))
    (he : entries.map (·.record) = (r.entries.map (·.record)).filter fun x => x.uniqueId ≠ u) :
    Covers name id { r with entries } after where
  sameName := h.sameName
  sameId := h.sameId
  complete := by
    rw [he]
    exact (h.complete.filter _).trans hafter.symm
  distinct := (hafter.map _).nodup_iff.mpr (h.distinct.sublist (List.filter_sublist.map _))

theorem map_record_filter (l : List Entry) (u : UniqueId) :
    (l.filter (·.uniqueId != u)).map (·.record)
      = (l.map (·.record)).filter fun x => x.uniqueId ≠ u := by
  rw [List.filter_map]
  refine congrArg _ (List.filter_congr fun e _ => ?_)
  by_cases he : e.record.uniqueId = u <;> simp [Entry.uniqueId, bne, he]

/-- The entry of an id is the only one, and where it was there is room for it. -/
theorem entries_erased {l : List Entry} {u : UniqueId} (hn : (l.map (·.uniqueId)).Nodup)
    (hu : u ∈ l.map (·.uniqueId)) :
    ∃ i, l.findIdx? (·.uniqueId == u) = some i ∧ i ≤ (l.eraseP (·.uniqueId == u)).length ∧
      (l.eraseP (·.uniqueId == u)).map (·.record)
        = (l.map (·.record)).filter fun x => x.uniqueId ≠ u := by
  induction l with
  | nil => cases hu
  | cons y l ih =>
    obtain ⟨hy, hl⟩ := List.nodup_cons.mp hn
    by_cases he : y.uniqueId = u
    · -- no entry behind it has the id
      have hrest : (l.map (·.record)).filter (fun x => x.uniqueId ≠ u) = l.map (·.record) := by
        refine List.filter_eq_self.mpr fun x hx => ?_
        obtain ⟨z, hz, rfl⟩ := List.mem_map.mp hx
        simpa using fun h => hy (List.mem_map.mpr ⟨z, hz, h.trans he.symm⟩)
      have hrecord : y.record.uniqueId = u := he
      refine ⟨0, by simp [List.findIdx?_cons, he], Nat.zero_le _, ?_⟩
      rw [List.eraseP_cons_of_pos (by simpa using he), List.map_cons,
        List.filter_cons_of_neg (by simpa using hrecord), hrest]
    · have hrecord : ¬ y.record.uniqueId = u := he
      obtain ⟨i, hi, hle, hrec⟩ := ih hl (by simpa [Ne.symm he] using hu)
      refine ⟨i + 1, by simp [List.findIdx?_cons, he, hi], ?_, ?_⟩
      · rw [List.eraseP_cons_of_neg (by simpa using he)]
        exact Nat.succ_le_succ hle
      · rw [List.eraseP_cons_of_neg (by simpa using he), List.map_cons, hrec, List.map_cons,
          List.filter_cons_of_pos (by simpa using hrecord)]

/-! ## Edits -/

/-- A record the device has added is put among the entries at any place. -/
theorem added_inStep (hosts : Hosts session name id view) (h : InStep name id view r s) {x : Record}
    (hdb : x.database = name) (hadd : session.recorded.addRecord id x s = (.ok (), s'))
    (put : Entry → List Entry → List Entry)
    (hput : ∀ e, (put e r.entries).Perm (e :: r.entries))
    (hmap : ∀ (table : SlotTable) (e : Entry) (l : List Entry),
      (put e l).map (·.relocate table) = put (e.relocate table) (l.map (·.relocate table)))
    (old : Slot) :
    ∃ settled r' s'', r.settle session.recorded x.uniqueId s' = (.ok settled, r', s'') ∧
      InStep name id view
        { r' with entries := put ⟨settled.slot.getD old, x⟩ r'.entries } s'' := by
  obtain ⟨hnew, hperm⟩ := hosts.recorded.addRecord hdb hadd
  exact settle_inStep hosts (hperm.symm.subset List.mem_cons_self) put
    (fun slot => h.covers.added hnew hperm (hput ⟨slot, x⟩)) hmap old

theorem add_inStep (hosts : Hosts session name id view) (h : InStep name id view r s)
    (content : Record) :
    ∃ answer r' s', r.add session.recorded content s = (answer, r', s') ∧
      InStep name id view r' s' := by
  obtain ⟨r₁, hr₁⟩ : ∃ r₁ : Replica, r₁ = { r with table := r.table.allocate.2 } := ⟨_, rfl⟩
  obtain ⟨x, hx⟩ : ∃ x, x = r₁.ownRecord r.table.allocate.1 content := ⟨_, rfl⟩
  have hid : x.uniqueId = r.table.allocate.1 := by rw [hx]; rfl
  have hdb : x.database = name := by rw [hx, hr₁, ← h.covers.sameName]; rfl
  have h₁ : InStep name id view r₁ s := by
    rw [hr₁]
    exact ⟨⟨h.covers.1, h.covers.2, h.covers.3, h.covers.4⟩, h.table, h.slots, h.fetched⟩
  simp only [add, ← hr₁]
  rw [← hx, ← hid]
  cases hadd : session.recorded.addRecord r.id x s with
  | mk answer s₁ =>
    cases answer with
    | error e =>
      exact ⟨_, r₁, s₁, rfl, h₁.of_run hadd rfl (hosts.recorded.refused hadd)⟩
    | ok =>
      obtain ⟨settled, r', s', hsettle, hin⟩ := added_inStep hosts h₁ hdb
        (h.covers.sameId ▸ hadd) List.cons (fun _ => List.Perm.refl _) (fun _ _ _ => rfl) 0
      simp only [hsettle]
      exact ⟨_, _, s', rfl, hin⟩

/-- Behind an accepted writing the record is in the place of that of its id. -/
theorem values_written (hosts : Hosts session name id view) (h : Covers name id r (view s.1))
    {x old : Record} {slot : Slot} (hdb : x.database = name)
    (hslot : (view s.1).get? slot = some old) (hold : old.uniqueId = x.uniqueId)
    (hwrite : session.recorded.writeRecord id slot x s = (.ok (), s')) :
    (view s'.1).values.Perm
        ((view s.1).values.map fun y => if y.uniqueId = x.uniqueId then x else y) ∧
      x ∈ (view s'.1).values := by
  obtain ⟨-, hperm⟩ := hosts.recorded.writeRecord hdb hwrite
  rw [Slots.values_insert_of_get? hslot x h.distinct, hold] at hperm
  exact ⟨hperm, hperm.symm.subset
    (List.mem_map.mpr ⟨old, Slots.mem_values_of_get? hslot, if_pos hold⟩)⟩

theorem overwriteInPlace_inStep (hosts : Hosts session name id view)
    (h : InStep name id view r s) {x old : Record} {slot : Slot} (hdb : x.database = name)
    (hslot : (view s.1).get? slot = some old) (hold : old.uniqueId = x.uniqueId) :
    ∃ answer r' s', r.overwriteInPlace session.recorded slot x s = (answer, r', s') ∧
      InStep name id view r' s' := by
  cases hwrite : session.recorded.writeRecord r.id slot x s with
  | mk answer s₁ =>
    cases answer with
    | error e =>
      exact ⟨.error (.ofDevice e), r, s₁, by simp only [overwriteInPlace, hwrite],
        h.of_run hwrite rfl (hosts.recorded.refused hwrite)⟩
    | ok =>
      obtain ⟨hperm, hmem⟩ :=
        values_written hosts h.covers hdb hslot hold (h.covers.sameId ▸ hwrite)
      obtain ⟨settled, r', s', hsettle, hin⟩ := settle_inStep hosts hmem putBack
        (fun _ => h.covers.overwritten hperm) map_relocate_putBack slot
      exact ⟨settled.answer ⟨settled.slot.getD slot, x⟩, _, s',
        by simp only [overwriteInPlace, hwrite, hsettle], hin⟩

theorem values_deleted (hosts : Hosts session name id view) (h : Covers name id r (view s.1))
    {old : Record} {slot : Slot} {u : UniqueId} (hslot : (view s.1).get? slot = some old)
    (hold : old.uniqueId = u) (hdelete : session.recorded.deleteRecord id slot s = (.ok (), s')) :
    (view s'.1).values.Perm ((view s.1).values.filter fun x => x.uniqueId ≠ u) := by
  obtain ⟨-, hperm⟩ := hosts.recorded.deleteRecord hdelete
  rwa [Slots.values_erase_of_get? hslot h.distinct, hold] at hperm

/-- An id that has been taken out is in use no more. -/
theorem notMem_ids_of_perm_filter {l l' : List Record} {u : UniqueId}
    (h : l'.Perm (l.filter fun x => x.uniqueId ≠ u)) : u ∉ l'.map (·.uniqueId) := by
  intro hmem
  obtain ⟨x, hx, hid⟩ := List.mem_map.mp ((h.map _).subset hmem)
  simpa [hid] using (List.mem_filter.mp hx).2

theorem overwriteByReplacing_inStep (hosts : Hosts session name id view)
    (h : InStep name id view r s) {x old : Record} {slot : Slot} (hdb : x.database = name)
    (hslot : (view s.1).get? slot = some old) (hold : old.uniqueId = x.uniqueId) :
    ∃ answer r' s', r.overwriteByReplacing session.recorded slot x s = (answer, r', s') ∧
      InStep name id view r' s' := by
  simp only [overwriteByReplacing]
  cases hdelete : session.recorded.deleteRecord r.id slot s with
  | mk answer s₁ =>
    cases answer with
    | error e =>
      exact ⟨_, r, s₁, rfl, h.of_run hdelete rfl (hosts.recorded.refused hdelete)⟩
    | ok =>
      have hperm := values_deleted hosts h.covers hslot hold (h.covers.sameId ▸ hdelete)
      have hmem : x.uniqueId ∈ r.entries.map (·.uniqueId) := by
        have := h.covers.complete.symm.subset (Slots.mem_values_of_get? hslot)
        obtain ⟨e, he, hrec⟩ := List.mem_map.mp this
        exact List.mem_map.mpr ⟨e, he, by rw [Entry.uniqueId, hrec, hold]⟩
      obtain ⟨i, hi, hle, hrec⟩ := entries_erased h.covers.uniqueIds_nodup hmem
      have h₁ := h.covers.erased hperm hrec
      rcases refresh_cases hosts h₁.sameId s₁ with
        ⟨e, s₂, hrun, hv, hf⟩ | ⟨table, s₂, hrun, hv, ht⟩
      · simp only [hrun]
        exact ⟨_, _, s₂, rfl, Covers.stale (hv ▸ ⟨h₁.1, h₁.2, h₁.3, h₁.4⟩) rfl hf⟩
      · have h₂ := Covers.moved (hv ▸ h₁) ht
        simp only [hrun, hi]
        -- from here on the old record is gone, and the new one is added like any other
        generalize hr₂ : moved _ table = r₂ at h₂
        have hlen : i ≤ r₂.entries.length := by
          rw [← hr₂, moved, List.length_map]
          exact hle
        cases hadd : session.recorded.addRecord r₂.id x s₂ with
        | mk answer s₃ =>
          cases answer with
          | error e =>
            exact ⟨_, r₂, s₃, rfl, h₂.of_run hadd rfl (hosts.recorded.refused hadd)⟩
          | ok =>
            obtain ⟨settled, r', s', hsettle, hin⟩ := added_inStep hosts h₂ hdb
              (h₂.covers.sameId ▸ hadd) (fun e l => l.insertIdx i e)
              (fun _ => List.perm_insertIdx _ _ hlen) (fun _ _ _ => List.map_insertIdx ..) slot
            simp only [hsettle]
            exact ⟨_, _, s', rfl, hin⟩

theorem overwrite_inStep (hosts : Hosts session name id view) (h : InStep name id view r s)
    (entry : Entry) (content : Record) :
    ∃ answer r' s', r.overwrite session.recorded entry content s = (answer, r', s') ∧
      InStep name id view r' s' := by
  obtain ⟨answer, r₁, s₁, hcurrent, h₁, hfound⟩ := currentSlot_spec hosts h entry.uniqueId
  simp only [overwrite, hcurrent]
  cases answer with
  | error e => exact ⟨_, r₁, s₁, rfl, h₁⟩
  | ok slot =>
    obtain ⟨-, old, hslot, hold⟩ := hfound slot rfl
    simp only
    split
    · exact overwriteInPlace_inStep hosts h₁ h.covers.sameName hslot hold
    · exact overwriteByReplacing_inStep hosts h₁ h.covers.sameName hslot hold

theorem delete_inStep (hosts : Hosts session name id view) (h : InStep name id view r s)
    (entry : Entry) :
    ∃ answer r' s', r.delete session.recorded entry s = (answer, r', s') ∧
      InStep name id view r' s' := by
  obtain ⟨answer, r₁, s₁, hcurrent, h₁, hfound⟩ := currentSlot_spec hosts h entry.uniqueId
  simp only [delete, hcurrent]
  cases answer with
  | error e => exact ⟨_, r₁, s₁, rfl, h₁⟩
  | ok slot =>
    obtain ⟨-, old, hslot, hold⟩ := hfound slot rfl
    simp only
    cases hdelete : session.recorded.deleteRecord r₁.id slot s₁ with
    | mk answer s₂ =>
      cases answer with
      | error e =>
        exact ⟨_, r₁, s₂, rfl, h₁.of_run hdelete rfl (hosts.recorded.refused hdelete)⟩
      | ok =>
        have hperm := values_deleted hosts h₁.covers hslot hold (h₁.covers.sameId ▸ hdelete)
        obtain ⟨answer, r', s', hrun, hin, -⟩ :=
          refresh_inStep hosts (h₁.covers.erased hperm (map_record_filter _ _))
        exact ⟨answer, r', s', hrun, hin⟩

theorem edit_inStep (hosts : Hosts session name id view) (h : InStep name id view r s)
    (e : Edit) :
    ∃ answer r' s', r.edit session.recorded e s = (answer, r', s') ∧
      InStep name id view r' s' := by
  cases e with
  | add content =>
    obtain ⟨answer, r', s', hrun, hin⟩ := add_inStep hosts h content
    simp only [edit, hrun]
    exact ⟨_, r', s', rfl, hin⟩
  | overwrite entry content =>
    obtain ⟨answer, r', s', hrun, hin⟩ := overwrite_inStep hosts h entry content
    simp only [edit, hrun]
    exact ⟨_, r', s', rfl, hin⟩
  | delete entry =>
    obtain ⟨answer, r', s', hrun, hin⟩ := delete_inStep hosts h entry
    simp only [edit, hrun]
    exact ⟨_, r', s', rfl, hin⟩

/-- Where an edit ends in step, the replica behind it is. -/
theorem inStep_of_run {α : Type} {run : Except Error α × Replica × σ × List Exchange}
    {answer : Except Error α}
    (h : ∃ answer r' s', run = (answer, r', s') ∧ InStep name id view r' s')
    (hrun : run = (answer, r, s)) : InStep name id view r s := by
  obtain ⟨_, _, _, hrun', hin⟩ := h
  rw [hrun] at hrun'
  cases hrun'
  exact hin

/-- Runs edits one after another, going on behind each that fails. -/
def editAll {σ : Type} (session : Session σ) : List Edit → Replica → σ → Replica × σ
  | [], r, s => (r, s)
  | e :: edits, r, s =>
    let (_, r, s) := r.edit session e s
    editAll session edits r s

theorem editAll_inStep (hosts : Hosts session name id view) (edits : List Edit)
    (h : InStep name id view r s) :
    ∃ r' s', editAll session.recorded edits r s = (r', s') ∧ InStep name id view r' s' := by
  induction edits generalizing r s with
  | nil => exact ⟨r, s, rfl, h⟩
  | cons e edits ih =>
    -- whatever the answer was, the replica is in step for the next edit
    obtain ⟨answer, r₁, s₁, hrun, h₁⟩ := edit_inStep hosts h e
    obtain ⟨r', s', hrest, hin⟩ := ih h₁
    exact ⟨r', s', by simp only [editAll, hrun, hrest], hin⟩

/-! ## Loading -/

/-- The records read are those at the slots. -/
theorem readAll_spec (hosts : Hosts session name id view) {slots : List Slot}
    {entries : List Entry} (h : readAll session.recorded id slots s = (.ok entries, s')) :
    view s'.1 = view s.1 ∧ lastFetch s'.2 = lastFetch s.2 ∧ entries.map (·.slot) = slots ∧
      ∀ e ∈ entries, (view s.1).get? e.slot = some e.record := by
  induction slots generalizing s entries with
  | nil =>
    obtain ⟨he, rfl⟩ := Prod.mk.inj h
    obtain rfl := Except.ok.inj he
    exact ⟨rfl, rfl, rfl, by simp⟩
  | cons slot slots ih =>
    simp only [readAll] at h
    cases hread : session.recorded.readRecord id slot s with
    | mk answer s₁ =>
      rw [hread] at h
      cases answer with
      | error e => cases h
      | ok x =>
        cases hrest : readAll session.recorded id slots s₁ with
        | mk answer s₂ =>
          simp only [hrest] at h
          cases answer with
          | error e => cases h
          | ok rest =>
            obtain ⟨he, rfl⟩ := Prod.mk.inj h
            obtain rfl := Except.ok.inj he
            obtain ⟨hx, hv⟩ := hosts.recorded.readRecord hread
            have hf : lastFetch s₁.2 = lastFetch s.2 := by
              rw [(of_recorded hread).2]
              exact lastFetch_cons_of_not rfl
            obtain ⟨hv', hf', hslots, hget⟩ := ih hrest
            refine ⟨hv'.trans hv, hf'.trans hf, by rw [List.map_cons, hslots], ?_⟩
            rintro e (_ | ⟨_, he⟩)
            · exact hx
            · exact hv ▸ hget e he

/-- What has been loaded is what is there. -/
theorem load_spec (hosts : Hosts session name id view)
    (h : load session.recorded name s = (.ok r, s')) :
    r.name = name ∧ r.id = id ∧ r.stale = false ∧ view s'.1 = view s.1 ∧
      r.table.ids = (view s'.1).map (·.uniqueId) ∧ r.entries.map (·.slot) = r.table.slots ∧
      ∀ e ∈ r.entries, (view s'.1).get? e.slot = some e.record := by
  unfold load at h
  cases hid : session.recorded.databaseId name s with
  | mk answer s₁ =>
    rw [hid] at h
    cases answer with
    | error e => cases h
    | ok i =>
      obtain ⟨rfl, hv₁⟩ := hosts.recorded.databaseId hid
      cases htable : session.recorded.slotTable i s₁ with
      | mk answer s₂ =>
        simp only [htable] at h
        cases answer with
        | error e => cases h
        | ok table =>
          obtain ⟨ht, hv₂⟩ := hosts.recorded.slotTable htable
          cases hread : readAll session.recorded i table.slots s₂ with
          | mk answer s₃ =>
            simp only [hread] at h
            cases answer with
            | error e => cases h
            | ok entries =>
              obtain ⟨hr, rfl⟩ := Prod.mk.inj h
              obtain rfl := Except.ok.inj hr
              obtain ⟨hv₃, -, hslots, hget⟩ := readAll_spec hosts hread
              rw [← hv₃] at hget
              rw [← hv₂, ← hv₃] at ht
              exact ⟨rfl, rfl, rfl, hv₃.trans (hv₂.trans hv₁), ht, hslots, hget⟩

/-- Loading keeps the records in slot order. -/
theorem load_records (hosts : Hosts session name id view)
    (h : load session.recorded name s = (.ok r, s')) :
    r.entries.map (·.record) = (view s'.1).values := by
  obtain ⟨-, -, -, -, ht, hslots, hget⟩ := load_spec hosts h
  -- slot by slot, what was read and what is there
  have hsome : (r.entries.map (·.record)).map some = (view s'.1).values.map some := by
    rw [← Slots.map_get?_keys, ← Slots.keys_map (·.uniqueId), ← ht]
    change _ = r.table.slots.map _
    rw [← hslots, List.map_map, List.map_map]
    exact List.map_congr_left fun e he => (hget e he).symm
  exact List.map_injective_iff.mpr (Option.some_injective _) hsome

theorem load_inStep (hosts : Hosts session name id view)
    (hn : ((view s.1).values.map (·.uniqueId)).Nodup)
    (h : load session.recorded name s = (.ok r, s')) : InStep name id view r s' := by
  obtain ⟨hname, hid, hstale, hv, ht, -, hget⟩ := load_spec hosts h
  refine ⟨⟨hname, hid, ?_, hv ▸ hn⟩, fun _ => ht, fun _ => hget, fun _ => hstale⟩
  rw [load_records hosts h]

theorem find?_uniqueId_eq_some {l : List Record} (hn : (l.map (·.uniqueId)).Nodup) {u : UniqueId}
    {x : Record} : l.find? (·.uniqueId == u) = some x ↔ x ∈ l ∧ x.uniqueId = u := by
  constructor
  · exact fun h => ⟨List.mem_of_find?_eq_some h, by simpa using List.find?_some h⟩
  · rintro ⟨hx, rfl⟩
    cases hf : l.find? (·.uniqueId == x.uniqueId) with
    | none => exact absurd (beq_self_eq_true _) (List.find?_eq_none.mp hf x hx)
    | some y =>
      have hy : y.uniqueId = x.uniqueId := by simpa using List.find?_some hf
      rw [List.inj_on_of_nodup_map hn (List.mem_of_find?_eq_some hf) hx hy]

/-- By id, the replica finds what the database has. -/
theorem Covers.find? (h : Covers name id r records) (u : UniqueId) :
    (r.find? u).map (·.record) = records.values.find? (·.uniqueId == u) := by
  have hn : ((r.entries.map (·.record)).map (·.uniqueId)).Nodup := by
    rw [List.map_map]
    exact h.uniqueIds_nodup
  have hmap : (r.find? u).map (·.record)
      = (r.entries.map (·.record)).find? (·.uniqueId == u) := by
    rw [List.find?_map]
    rfl
  rw [hmap]
  refine Option.ext fun x => ?_
  rw [find?_uniqueId_eq_some hn, find?_uniqueId_eq_some h.distinct, h.complete.mem_iff]

theorem exists_of_accepted {ε α τ : Type} {x : Except ε α × τ} (h : accepted x.1 = true) :
    ∃ a s, x = (.ok a, s) := by
  obtain ⟨answer, s⟩ := x
  cases answer with
  | error e => cases h
  | ok a => exact ⟨a, s, rfl⟩

/-- **A replica mirrors its database under every fault.**  After any edits of entries whatever, each
of which may fail at any of its commands, the replica finds for every id the record that the
database has, it has no id twice, and if the latest fetch of the slot table was accepted, each of
its entries is at the slot of its record. -/
theorem editAll_mirrors (hosts : Hosts session name id view) {s : σ}
    (distinct : ((view s).values.map (·.uniqueId)).Nodup) {s₁ : σ × List Exchange}
    (loaded : load session.recorded name (s, []) = (.ok r, s₁)) (edits : List Edit) :
    let (r', s') := editAll session.recorded edits r s₁
    (∀ u, (r'.find? u).map (·.record) = (view s'.1).values.find? (·.uniqueId == u)) ∧
    (r'.entries.map (·.uniqueId)).Nodup ∧
    (lastFetch s'.2 = some true →
      ∀ e ∈ r'.entries, (view s'.1).get? e.slot = some e.record) := by
  obtain ⟨r', s', hrun, h⟩ := editAll_inStep hosts edits (load_inStep hosts distinct loaded)
  rw [hrun]
  exact ⟨h.covers.find?, h.covers.uniqueIds_nodup, fun hf => h.slots (h.fetched hf)⟩

/-- On a renumbering device the table cannot be fetched behind an addition; the next overwriting
does it, and its own addition is refused. -/
theorem editAll_mirrors_refused :
    let task (u : UniqueId) : Record := ⟨"Tasks", u, 0, ⟨#[1]⟩⟩
    let d : Device :=
      { databases := [{ name := "Tasks", records := Slots.numbered 0 [task 1, task 2] }]
        renumbering := true }
    let session := (guarded "Tasks" 1).refusing
    -- what is let through: four commands of the loading, the addition, the fetch behind it not
    let plan := [false, false, false, false, false, true, false, false, false, true]
    let edits := [Edit.add (task 0), .overwrite ⟨0, task 1⟩ (task 0)]
    ∃ r s₁, load session.recorded "Tasks" ((d, plan), []) = (.ok r, s₁) ∧
      let (r', s') := editAll session.recorded edits r s₁
      (∀ u, (r'.find? u).map (·.record)
        = (recordsAt 1 s'.1.1).values.find? (·.uniqueId == u)) ∧
      (r'.entries.map (·.uniqueId)).Nodup ∧
      (lastFetch s'.2 = some true →
        ∀ e ∈ r'.entries, (recordsAt 1 s'.1.1).get? e.slot = some e.record) := by
  intro task d session plan edits
  have hload : accepted (load session.recorded "Tasks" ((d, plan), [])).1 = true := by
    decide +kernel
  obtain ⟨r, s₁, hload⟩ := exists_of_accepted hload
  exact ⟨r, s₁, hload,
    editAll_mirrors (hosts_guarded "Tasks" 1).refusing (s := (d, plan)) (by decide) hload edits⟩

end Palmtop.Replica
