import Palmtop.Proofs.Replica.Deleted
import Palmtop.Proofs.Replica.Refusing

/-! # Ids of added records

An addition takes its id from the table in hand, even if that could not be fetched for a long time
and the device has other records by now.  The id is free on the device all the same: a record that
the table does not list was added since the table was fetched, so that the allocator is past its id
(`Accounted`).

One edit could spoil this, that which deletes a record and adds it again: behind the deletion the
table is fetched without the record, and if it could not be fetched behind the addition, the table
would not list a record whose id the allocator may still come to.  On a device whose faults are not
switched in the middle of an edit this does not happen, since a table that was handed out once is
handed out again (`Fetchable.added`).

None of this depends on the numbers of slots, which may run over.
-/
namespace Palmtop

namespace Device
variable {id : DatabaseId} {d d' : Device} {c : Command} {db : Database} {r : Record}

/-! ## Ids on a device -/

/-- The ids of the records of the database with this id. -/
def idsAt (id : DatabaseId) (d : Device) : List UniqueId :=
  (recordsAt id d).values.map (·.uniqueId)

theorem idsAt_of_database? (h : d.database? id = some db) : idsAt id d = db.uniqueIds := by
  rw [idsAt, recordsAt_of_database? h]
  rfl

@[simp] theorem idsAt_logged (e : Exchange) : idsAt id (d.logged e) = idsAt id d := rfl

/-- What a session answered, the device executed. -/
theorem of_session {answer : Except Error c.Answer} (h : session.run c d = (answer, d')) :
    ∃ after e, d.execute c = (answer, after) ∧ d' = after.logged e := by
  rw [run_session] at h
  obtain ⟨hanswer, rfl⟩ := Prod.mk.inj h
  exact ⟨_, _, Prod.ext hanswer rfl, rfl⟩

theorem idsAt_refused {e : Error} (h : session.run c d = (.error e, d')) :
    idsAt id d' = idsAt id d := by
  obtain ⟨after, x, hrun, rfl⟩ := of_session h
  rw [idsAt_logged, execute_refused hrun]

theorem idsAt_of_not_isMutation {answer : Except Error c.Answer} (hc : c.isMutation = false)
    (h : session.run c d = (answer, d')) : idsAt id d' = idsAt id d := by
  obtain ⟨after, x, hrun, rfl⟩ := of_session h
  have hsame : after = d := by
    have hkept := execute_of_not_isMutation (d := d) hc
    rwa [hrun] at hkept
  rw [idsAt_logged, hsame]

/-- Moving the records to fresh slots brings in no id. -/
theorem idsAt_mutate (h : d.database? id = some db) (new : Database) :
    idsAt id (d.mutate id new) ⊆ new.uniqueIds := by
  have hat : (d.mutate id new).database? id = some (d.stored new) := by
    rw [database?_mutate h, if_pos rfl]
  rw [idsAt_of_database? hat, stored]
  split
  · intro u hu
    obtain ⟨x, hx, rfl⟩ := List.mem_map.mp hu
    exact List.mem_map_of_mem (Slots.mem_values_numbered hx)
  · exact List.Subset.refl _

theorem idsAt_insert (h : d.database? id = some db) (slot : Slot) :
    idsAt id (d.mutate id { db with records := db.records.insert slot (r.inDatabase db.name) })
      ⊆ r.uniqueId :: idsAt id d := by
  intro u hu
  obtain ⟨x, hx, rfl⟩ := List.mem_map.mp (idsAt_mutate h _ hu)
  rw [idsAt_of_database? h]
  rcases Slots.mem_values_insert hx with rfl | hx
  · exact List.mem_cons_self
  · exact List.mem_cons_of_mem _ (List.mem_map_of_mem hx)

theorem idsAt_written {slot : Slot} (h : session.writeRecord id slot r d = (.ok (), d')) :
    idsAt id d' ⊆ r.uniqueId :: idsAt id d := by
  obtain ⟨after, e, hrun, rfl⟩ := of_session h
  obtain ⟨db, old, hdb, -, rfl⟩ := writeRecord_accepted hrun
  exact idsAt_insert hdb slot

theorem idsAt_added (h : session.addRecord id r d = (.ok (), d')) :
    idsAt id d' ⊆ r.uniqueId :: idsAt id d := by
  obtain ⟨after, e, hrun, rfl⟩ := of_session h
  obtain ⟨db, hdb, -, rfl⟩ := addRecord_accepted hrun
  exact idsAt_insert hdb _

theorem idsAt_deleted {slot : Slot} (h : session.deleteRecord id slot d = (.ok (), d')) :
    idsAt id d' ⊆ idsAt id d := by
  obtain ⟨after, e, hrun, rfl⟩ := of_session h
  obtain ⟨db, old, hdb, -, rfl⟩ := deleteRecord_accepted hrun
  have hsub : (db.records.erase slot).values ⊆ db.records.values :=
    List.map_subset _ List.filter_sublist.subset
  intro u hu
  rw [idsAt_of_database? hdb]
  exact List.map_subset _ hsub (idsAt_mutate hdb _ hu)

/-! ## Slot tables that can be fetched -/

/-- The device hands out the slot table of this database. -/
def Fetchable (id : DatabaseId) (d : Device) : Prop :=
  ∃ db, d.reach id = .ok db ∧ db.refusingSlotTable = false

theorem slotTable_fetched {t : SlotTable} (h : session.slotTable id d = (.ok t, d')) :
    t.ids.values = idsAt id d' ∧ t.lastNewId = 0 ∧ d'.Fetchable id := by
  obtain ⟨after, e, hrun, rfl⟩ := of_session h
  simp only [execute] at hrun
  split at hrun
  · cases hrun
  rename_i db hreach
  split at hrun
  · cases hrun
  rename_i hopen
  obtain ⟨ht, rfl⟩ := Prod.mk.inj hrun
  refine ⟨?_, by rw [← Except.ok.inj ht]; rfl, db, hreach, eq_false_of_ne_true hopen⟩
  rw [← Except.ok.inj ht, idsAt_logged, idsAt_of_database? (database?_of_reach hreach)]
  exact Slots.values_map _ _

theorem Fetchable.slotTable (h : d.Fetchable id) :
    ∃ t d', session.slotTable id d = (.ok t, d') := by
  obtain ⟨db, hreach, hopen⟩ := h
  simp only [Session.slotTable, run_session, execute, hreach, hopen]
  exact ⟨_, _, rfl⟩

/-- What is handed out is handed out behind an addition too. -/
theorem Fetchable.added (h : d.Fetchable id) (hadd : session.addRecord id r d = (.ok (), d')) :
    d'.Fetchable id := by
  obtain ⟨after, e, hrun, rfl⟩ := of_session hadd
  obtain ⟨db, hdb, -, rfl⟩ := addRecord_accepted hrun
  obtain ⟨db', hreach, hopen⟩ := h
  obtain rfl : db = db' := Option.some.inj (hdb.symm.trans (database?_of_reach hreach))
  have hlinked : d.linkBroken = false := by
    refine eq_false_of_ne_true fun hbroken => ?_
    rw [reach, if_pos hbroken] at hreach
    cases hreach
  let new : Database :=
    { db with records := db.records.insert db.records.next (r.inDatabase db.name) }
  have hat : (d.mutate id new).database? id = some (d.stored new) := by
    rw [database?_mutate hdb, if_pos rfl]
  have hbare : (d.stored new).bare.refusingSlotTable = db.bare.refusingSlotTable := by
    rw [bare_stored]
    rfl
  have hlinked' : (d.mutate id new).linkBroken = false := (linkBroken_mutate d id new).trans hlinked
  exact ⟨d.stored new, reach_eq (d := (d.mutate id new).logged e) hlinked' hat, hbare.trans hopen⟩

/-! ## Refusals of duplicates -/

/-- The refusal of a record whose id is taken (`Database.addRefusal`). -/
def duplicate (u : UniqueId) : Error := .rejected s!"duplicate unique ID {u.show}"

/-- No other refusal reads like that of a duplicate. -/
theorem rejected_ne_duplicate {text : String} (h : text.toList.head? ≠ some 'd') (u : UniqueId) :
    Error.rejected text ≠ duplicate u := by
  intro he
  refine h ?_
  rw [Error.rejected.inj he]
  simp [toString]

theorem reach_ne_duplicate {e : Error} (h : d.reach id = .error e) (u : UniqueId) :
    e ≠ duplicate u := by
  unfold reach at h
  repeat' split at h
  all_goals
    intro he
    cases h <;> cases he

theorem slotTable_ne_duplicate {e : Error} (h : session.slotTable id d = (.error e, d'))
    (u : UniqueId) : e ≠ duplicate u := by
  obtain ⟨after, x, hrun, rfl⟩ := of_session h
  simp only [execute] at hrun
  split at hrun
  · obtain ⟨he, -⟩ := Prod.mk.inj hrun
    exact Except.error.inj he ▸ reach_ne_duplicate ‹_› u
  · split at hrun
    · obtain ⟨he, -⟩ := Prod.mk.inj hrun
      exact Except.error.inj he ▸ rejected_ne_duplicate (by simp [toString]) u
    · cases hrun

/-- A record of a new id is not refused as a duplicate. -/
theorem addRecord_ne_duplicate {e : Error} (hnew : r.uniqueId ∉ idsAt id d)
    (h : session.addRecord id r d = (.error e, d')) (u : UniqueId) : e ≠ duplicate u := by
  obtain ⟨after, x, hrun, rfl⟩ := of_session h
  simp only [execute] at hrun
  split at hrun
  · obtain ⟨he, -⟩ := Prod.mk.inj hrun
    exact Except.error.inj he ▸ reach_ne_duplicate ‹_› u
  rename_i db hreach
  rw [idsAt_of_database? (database?_of_reach hreach)] at hnew
  have hany : db.records.values.any (·.uniqueId == r.uniqueId) = false := by
    simpa [List.any_eq_false, mem_uniqueIds] using hnew
  split at hrun
  · rename_i refusal hrefusal
    obtain ⟨he, -⟩ := Prod.mk.inj hrun
    rw [← Except.error.inj he]
    simp only [Database.addRefusal, Database.writeRefusal, hany, Option.or_eq_some_iff,
      Bool.false_eq_true, if_false] at hrefusal
    rcases hrefusal with hwrites | ⟨-, hadds⟩
    · repeat' split at hwrites
      all_goals cases hwrites
      · intro he
        cases he
      · exact rejected_ne_duplicate (by simp [toString]) u
    · split at hadds
      · exact Option.some.inj hadds ▸ rejected_ne_duplicate (by simp [toString]) u
      · cases hadds
  · cases hrun

end Device

namespace Replica
open Device

variable {r r' : Replica} {s s' : Device × List Exchange} {u : UniqueId}

/-! ## Looking -/

/-- Every record on the device has an id that the replica's table lists or the allocator is past. -/
def Accounted (r : Replica) (d : Device) : Prop :=
  ∀ u ∈ idsAt r.id d, u ∈ r.table.ids.values ∨ u ≤ r.table.lastNewId

/-- An allocator that goes on to a larger id goes on to a new one. -/
theorem Accounted.allocate_new (h : Accounted r s.1)
    (hahead : r.table.lastNewId < r.table.allocate.1) : r.table.allocate.1 ∉ idsAt r.id s.1 := by
  intro hmem
  rcases h _ hmem with hlisted | hle
  · exact r.table.allocate_fresh.2 hlisted
  · exact UInt64.not_le.mpr hahead hle

/-- Looks at a device leave the ids there and the allocator as they are, and the table lists the ids
it did or those on the device. -/
structure Sees (r : Replica) (s : Device × List Exchange) (r' : Replica)
    (s' : Device × List Exchange) : Prop where
  sameId : r'.id = r.id
  ids : idsAt r.id s'.1 = idsAt r.id s.1
  allocator : r'.table.lastNewId = r.table.lastNewId
  table : r'.table.ids = r.table.ids ∨ r'.table.ids.values = idsAt r.id s'.1

theorem sees_self (r : Replica) (s : Device × List Exchange) : Sees r s r s :=
  ⟨rfl, rfl, rfl, Or.inl rfl⟩

theorem Accounted.sees (h : Accounted r s.1) (hsees : Sees r s r' s') : Accounted r' s'.1 := by
  intro u hu
  rw [hsees.sameId] at hu
  rcases hsees.table with hkept | hfetched
  · rw [hkept, hsees.allocator]
    exact h u (hsees.ids ▸ hu)
  · rw [hfetched]
    exact Or.inl hu

/-- A table that lists the ids on the device accounts for them. -/
theorem accounted_of_ids (h : r.table.ids.values = idsAt r.id s.1) : Accounted r s.1 :=
  fun _ hu => Or.inl (h ▸ hu)

theorem Accounted.stored (h : Accounted r s.1) (hu : u ∈ r.table.ids.values ∨ u ≤ r.table.lastNewId)
    (hids : idsAt r.id s'.1 ⊆ u :: idsAt r.id s.1) : Accounted r s'.1 := by
  intro v hv
  rcases List.mem_cons.mp (hids hv) with rfl | hv
  · exact hu
  · exact h v hv

theorem Accounted.refused {c : Command} {e : Device.Error} (h : Accounted r s.1)
    (hrun : session.recorded.run c s = (.error e, s')) : Accounted r s'.1 := by
  have hids : idsAt r.id s'.1 = idsAt r.id s.1 := idsAt_refused (of_recorded hrun).1
  exact fun u hu => h u (hids ▸ hu)

/-- What a fetch of the table shows, if it is accepted. -/
structure Shows (r : Replica) (s : Device × List Exchange) : Prop where
  ids : r.table.ids.values = idsAt r.id s.1
  fetchable : s.1.Fetchable r.id

theorem refresh_sees {answer : Except Error Unit}
    (h : r.refresh session.recorded s = (answer, r', s')) :
    Sees r s r' s' ∧ (answer = .ok () → Shows r' s') := by
  unfold refresh at h
  split at h
  · rename_i hrun
    cases h
    exact ⟨⟨rfl, idsAt_refused (of_recorded hrun).1, rfl, Or.inl rfl⟩, nofun⟩
  · rename_i hrun
    cases h
    have hkept : idsAt r.id s'.1 = idsAt r.id s.1 :=
      idsAt_of_not_isMutation rfl (of_recorded hrun).1
    obtain ⟨hids, -, hfetchable⟩ := slotTable_fetched (of_recorded hrun).1
    exact ⟨⟨rfl, hkept, rfl, Or.inr hids⟩, fun _ => ⟨hids, hfetchable⟩⟩

theorem refresh_of_fetchable (h : s.1.Fetchable r.id) :
    ∃ r' s', r.refresh session.recorded s = (.ok (), r', s') := by
  obtain ⟨t, d', hrun⟩ := h.slotTable
  have hrecorded : session.recorded.slotTable r.id s
      = (.ok t, d', ⟨.slotTable r.id, true⟩ :: s.2) := by
    rw [Session.slotTable, run_recorded]
    rw [Session.slotTable] at hrun
    rw [hrun]
    rfl
  simp only [refresh, hrecorded]
  exact ⟨_, _, rfl⟩

theorem settle_sees {answer : Except Error Settled}
    (h : r.settle session.recorded u s = (answer, r', s')) : Sees r s r' s' := by
  unfold settle at h
  split at h
  · rename_i hrun
    cases h
    exact (refresh_sees hrun).1
  · rename_i hrun
    split at h <;>
    · cases h
      exact (refresh_sees hrun).1

/-- Where the table can be fetched, a record is settled with it. -/
theorem settle_shows {answer : Except Error Settled} (hs : s.1.Fetchable r.id)
    (h : r.settle session.recorded u s = (answer, r', s')) : Shows r' s' := by
  obtain ⟨r₁, s₁, hrun⟩ := refresh_of_fetchable hs
  have hshows := (refresh_sees hrun).2 rfl
  simp only [settle, hrun] at h
  split at h <;>
  · cases h
    exact hshows

/-- Looking for a slot sees the table; the id of a slot that is found is in it. -/
theorem currentSlot_sees {answer : Except Error Slot}
    (h : r.currentSlot session.recorded u s = (answer, r', s')) :
    Sees r s r' s' ∧ ∀ slot, answer = .ok slot → u ∈ r'.table.ids.values := by
  have hfound {t : SlotTable} {slot : Slot} (hslot : t.slotOf? u = some slot) :
      u ∈ t.ids.values := by
    by_contra hnone
    rw [SlotTable.slotOf?_eq_none_iff.mpr hnone] at hslot
    cases hslot
  simp only [currentSlot] at h
  split at h
  · split at h
    · rename_i hrun
      cases h
      exact ⟨(refresh_sees hrun).1, fun _ hslot => by cases hslot⟩
    · rename_i hrun
      split at h
      · rename_i hslot
        cases h
        exact ⟨(refresh_sees hrun).1, fun _ _ => hfound hslot⟩
      · cases h
        exact ⟨(refresh_sees hrun).1, fun _ hslot => by cases hslot⟩
  · split at h
    · rename_i hslot
      cases h
      exact ⟨sees_self r s, fun _ _ => hfound hslot⟩
    · cases h
      exact ⟨sees_self r s, fun _ hslot => by cases hslot⟩

/-! ## Edits -/

/-- The state behind an edit: the same database, and every record on it accounted for. -/
structure Accounts (r : Replica) (after : Replica × Device × List Exchange) : Prop where
  sameId : after.1.id = r.id
  accounted : Accounted after.1 after.2.1

theorem Accounted.after_sees (h : Accounted r s.1) (hsees : Sees r s r' s') :
    Accounts r (r', s') :=
  ⟨hsees.sameId, h.sees hsees⟩

theorem Accounts.trans {after : Replica × Device × List Exchange} (h : Accounts r' after)
    (hid : r'.id = r.id) : Accounts r after :=
  ⟨h.sameId.trans hid, h.accounted⟩

/-- Whatever has become of the entries. -/
theorem Accounts.with_entries (h : Accounts r (r', s')) (entries : List Entry) :
    Accounts r ({ r' with entries }, s') :=
  ⟨h.sameId, h.accounted⟩

/-- The allocator is past the id of the record it was asked for. -/
theorem add_accounts (h : Accounted r s.1) (hahead : r.table.lastNewId ≤ r.table.allocate.1)
    (content : Record) : Accounts r (r.add session.recorded content s).2 := by
  simp only [add]
  generalize hr₁ : ({ r with table := r.table.allocate.2 } : Replica) = r₁
  have hid : r₁.id = r.id := by rw [← hr₁]
  have hlast : r₁.table.lastNewId = r.table.allocate.1 := by rw [← hr₁]; rfl
  have h₁ : Accounted r₁ s.1 := by
    intro u hu
    rw [hid] at hu
    rw [hlast]
    have hids : r₁.table.ids = r.table.ids := by rw [← hr₁]; rfl
    rw [hids]
    exact (h u hu).imp_right fun hle => UInt64.le_trans hle hahead
  rw [← hid]
  rcases hadd : session.recorded.addRecord r₁.id (r₁.ownRecord r.table.allocate.1 content) s with
    ⟨e | _, s₁⟩
  · exact ⟨hid, h₁.refused hadd⟩
  have hadded : Accounted r₁ s₁.1 :=
    h₁.stored (Or.inr (hlast ▸ UInt64.le_refl _)) (idsAt_added (of_recorded hadd).1)
  simp only
  rcases hsettle : r₁.settle session.recorded r.table.allocate.1 s₁ with ⟨e | settled, r₂, s₂⟩
  · exact (hadded.after_sees (settle_sees hsettle)).trans hid
  · exact ((hadded.after_sees (settle_sees hsettle)).trans hid).with_entries _

theorem overwriteInPlace_accounts (h : Accounted r s.1) {x : Record}
    (hx : x.uniqueId ∈ r.table.ids.values) (slot : Slot) :
    Accounts r (r.overwriteInPlace session.recorded slot x s).2 := by
  simp only [overwriteInPlace]
  rcases hwrite : session.recorded.writeRecord r.id slot x s with ⟨e | _, s₁⟩
  · exact ⟨rfl, h.refused hwrite⟩
  have hwritten := h.stored (Or.inl hx) (idsAt_written (of_recorded hwrite).1)
  simp only
  rcases hsettle : r.settle session.recorded x.uniqueId s₁ with ⟨e | settled, r₂, s₂⟩
  · exact hwritten.after_sees (settle_sees hsettle)
  · exact (hwritten.after_sees (settle_sees hsettle)).with_entries _

/-- The table that was fetched behind the deletion can be fetched behind the addition. -/
theorem overwriteByReplacing_accounts (h : Accounted r s.1) (slot : Slot) (x : Record) :
    Accounts r (r.overwriteByReplacing session.recorded slot x s).2 := by
  simp only [overwriteByReplacing]
  rcases hdelete : session.recorded.deleteRecord r.id slot s with ⟨e | _, s₁⟩
  · exact ⟨rfl, h.refused hdelete⟩
  simp only
  generalize hr₁ : ({ r with entries := r.entries.eraseP _ } : Replica) = r₁
  have hid : r₁.id = r.id := by rw [← hr₁]
  have h₁ : Accounted r₁ s₁.1 := by
    rw [← hr₁]
    exact fun u hu => h u (idsAt_deleted (of_recorded hdelete).1 hu)
  rcases hrefresh : r₁.refresh session.recorded s₁ with ⟨e | _, r₂, s₂⟩
  · exact (h₁.after_sees (refresh_sees hrefresh).1).trans hid
  obtain ⟨hsees, hshows⟩ := refresh_sees hrefresh
  have h₂ := h₁.sees hsees
  simp only
  rcases hadd : session.recorded.addRecord r₂.id x s₂ with ⟨e | _, s₃⟩
  · exact ⟨hsees.sameId.trans hid, h₂.refused hadd⟩
  have hfetchable := (hshows rfl).fetchable.added (of_recorded hadd).1
  simp only
  rcases hsettle : r₂.settle session.recorded x.uniqueId s₃ with ⟨e | settled, r₄, s₄⟩
  all_goals
    have hids := accounted_of_ids (settle_shows hfetchable hsettle).ids
    exact ⟨(settle_sees hsettle).sameId.trans (hsees.sameId.trans hid), hids⟩

theorem overwrite_accounts (h : Accounted r s.1) (entry : Entry) (content : Record) :
    Accounts r (r.overwrite session.recorded entry content s).2 := by
  simp only [overwrite]
  rcases hlook : r.currentSlot session.recorded entry.uniqueId s with ⟨e | slot, r₁, s₁⟩
  · exact h.after_sees (currentSlot_sees hlook).1
  obtain ⟨hsees, hlisted⟩ := currentSlot_sees hlook
  have h₁ := h.sees hsees
  simp only
  split
  · have hx : (r.ownRecord entry.uniqueId content).uniqueId ∈ r₁.table.ids.values :=
      hlisted slot rfl
    exact (overwriteInPlace_accounts h₁ hx slot).trans hsees.sameId
  · exact (overwriteByReplacing_accounts h₁ slot _).trans hsees.sameId

theorem delete_accounts (h : Accounted r s.1) (entry : Entry) :
    Accounts r (r.delete session.recorded entry s).2 := by
  simp only [delete]
  rcases hlook : r.currentSlot session.recorded entry.uniqueId s with ⟨e | slot, r₁, s₁⟩
  · exact h.after_sees (currentSlot_sees hlook).1
  have hsees := (currentSlot_sees hlook).1
  have h₁ := h.sees hsees
  simp only
  rcases hdelete : session.recorded.deleteRecord r₁.id slot s₁ with ⟨e | _, s₂⟩
  · exact ⟨hsees.sameId, h₁.refused hdelete⟩
  simp only
  generalize hr₂ : ({ r₁ with entries := _ } : Replica) = r₂
  have hid : r₂.id = r₁.id := by rw [← hr₂]
  have h₂ : Accounted r₂ s₂.1 := by
    rw [← hr₂]
    exact fun u hu => h₁ u (idsAt_deleted (of_recorded hdelete).1 hu)
  rcases hrefresh : r₂.refresh session.recorded s₂ with ⟨answer, r₃, s₃⟩
  exact (h₂.after_sees (refresh_sees hrefresh).1).trans (hid.trans hsees.sameId)

/-- No edit loses track of a record, unless it takes the allocator past the largest id. -/
theorem edit_accounts (h : Accounted r s.1) (e : Edit)
    (hahead : ∀ u, e.takes r = some u → r.table.lastNewId ≤ u) :
    Accounts r (r.edit session.recorded e s).2 := by
  cases e with
  | add content => exact add_accounts h (hahead _ rfl) content
  | overwrite entry content => exact overwrite_accounts h entry content
  | delete entry => exact delete_accounts h entry

/-! ## Edits among switched faults -/

/-- The id a turn takes for a new record. -/
def Turn.takes {σ : Type} (r : Replica) : Turn σ → Option UniqueId
  | .own e => e.takes r
  | .foreign _ => none

/-- The ids given out to the additions among these turns, in order. -/
def allotted {σ : Type} (session : Session σ) :
    List (Turn σ) → Replica × σ × List Exchange → List UniqueId
  | [], _ => []
  | t :: history, w => (t.takes w.1).toList ++ allotted session history (turn session w t)

section allotted
variable {σ : Type} (session : Session σ)

theorem lastNewId_turn (w : Replica × σ × List Exchange) (t : Turn σ) :
    (turn session w t).1.table.lastNewId = (t.takes w.1).getD w.1.table.lastNewId := by
  cases t with
  | own e => exact lastNewId_edit session.recorded e w.1 w.2
  | foreign change => rfl

/-- The allocator stands at the id given out last. -/
theorem lastNewId_turns (history : List (Turn σ)) (w : Replica × σ × List Exchange) :
    (turns session w history).1.table.lastNewId
      = (allotted session history w).getLastD w.1.table.lastNewId := by
  induction history generalizing w with
  | nil => rfl
  | cons t history ih =>
    have hrest := ih (turn session w t)
    rw [lastNewId_turn] at hrest
    rw [turns, List.foldl_cons, allotted]
    refine hrest.trans ?_
    cases t.takes w.1 with
    | none => rfl
    | some u => rw [Option.toList_some, List.singleton_append, List.getLastD_cons, Option.getD_some]

/-- No id is more than `SlotTable.reach` looks away from the one before. -/
theorem travel_allotted_le (history : List (Turn σ)) (w : Replica × σ × List Exchange) :
    SlotTable.travel w.1.table.lastNewId (allotted session history w)
      ≤ (allotted session history w).length * SlotTable.reach := by
  induction history generalizing w with
  | nil => exact Nat.zero_le _
  | cons t history ih =>
    have hrest := ih (turn session w t)
    rw [lastNewId_turn] at hrest
    rw [allotted]
    cases htakes : t.takes w.1 with
    | none =>
      rw [htakes] at hrest
      exact hrest
    | some u =>
      rw [htakes, Option.getD_some] at hrest
      obtain rfl : u = w.1.table.allocate.1 := by
        cases t with
        | own e => cases e <;> cases htakes; rfl
        | foreign change => cases htakes
      have hlooks := w.1.table.looks_allocate_le_reach
      rw [Option.toList_some, List.singleton_append, SlotTable.travel, List.length_cons,
        Nat.succ_mul]
      omega

end allotted

theorem turn_accounts {w : Replica × Device × List Exchange} (h : Accounted w.1 w.2.1)
    {t : Turn Device} (switches : ∀ change, t = .foreign change → Switches change)
    (hahead : ∀ u, t.takes w.1 = some u → w.1.table.lastNewId ≤ u) :
    Accounts w.1 (turn session w t) := by
  cases t with
  | own e => exact edit_accounts h e hahead
  | foreign change =>
    have hids : idsAt w.1.id (change w.2.1) = idsAt w.1.id w.2.1 := by
      rw [idsAt, idsAt, recordsAt_of_holdings (switches change rfl w.2.1)]
    refine ⟨rfl, fun u hu => h u ?_⟩
    rw [← hids]
    exact hu

/-- Every record stays accounted for until the allocator passes the largest id. -/
theorem turns_accounts {w : Replica × Device × List Exchange} (h : Accounted w.1 w.2.1)
    (history : List (Turn Device))
    (switches : ∀ change, Turn.foreign change ∈ history → Switches change)
    (hshort : w.1.table.lastNewId.toNat +
      SlotTable.travel w.1.table.lastNewId (allotted session history w) < UInt64.size) :
    Accounts w.1 (turns session w history) := by
  induction history generalizing w with
  | nil => exact ⟨rfl, h⟩
  | cons t history ih =>
    have hswitch := fun change (ht : t = .foreign change) => switches change (by simp [ht])
    have hswitches := fun change hmem => switches change (List.mem_cons_of_mem _ hmem)
    have hlast := lastNewId_turn session w t
    rw [allotted] at hshort
    rw [turns, List.foldl_cons]
    cases htakes : t.takes w.1 with
    | none =>
      rw [htakes, Option.getD_none] at hlast
      rw [htakes, Option.toList_none, List.nil_append] at hshort
      have hstep := turn_accounts h hswitch fun u hu => by rw [htakes] at hu; cases hu
      exact (ih hstep.accounted hswitches (hlast ▸ hshort)).trans hstep.sameId
    | some u =>
      rw [htakes, Option.getD_some] at hlast
      rw [htakes, Option.toList_some, List.singleton_append, SlotTable.travel] at hshort
      have hu : u.toNat = w.1.table.lastNewId.toNat + SlotTable.looks w.1.table.lastNewId u :=
        SlotTable.toNat_eq_add_looks (by omega)
      have hstep := turn_accounts h hswitch fun v hv => by
        rw [htakes] at hv
        rw [← Option.some.inj hv, UInt64.le_iff_toNat_le]
        omega
      refine (ih hstep.accounted hswitches ?_).trans hstep.sameId
      rw [hlast]
      omega

/-! ## Fresh ids -/

theorem readAll_ids {id : DatabaseId} {slots : List Slot} {answer : Except Error (List Entry)}
    (h : readAll session.recorded id slots s = (answer, s')) : idsAt id s'.1 = idsAt id s.1 := by
  induction slots generalizing s answer with
  | nil =>
    cases h
    rfl
  | cons slot slots ih =>
    rw [readAll] at h
    split at h
    · rename_i hread
      cases h
      exact idsAt_of_not_isMutation rfl (of_recorded hread).1
    · rename_i hread
      have hkept : idsAt id _ = idsAt id s.1 := idsAt_of_not_isMutation rfl (of_recorded hread).1
      split at h <;>
      · rename_i hrest
        cases h
        exact (ih hrest).trans hkept

/-- A table just loaded lists the ids on the device, and has given out none. -/
theorem load_table {name : String} {s : Device × List Exchange}
    (h : load session.recorded name s = (.ok r, s')) :
    r.table.ids.values = idsAt r.id s'.1 ∧ r.table.lastNewId = 0 := by
  unfold load at h
  split at h
  · cases h
  split at h
  · cases h
  rename_i hrun
  obtain ⟨hids, hunused, -⟩ := slotTable_fetched (of_recorded hrun).1
  split at h
  · cases h
  rename_i hread
  cases h
  exact ⟨hids.trans (readAll_ids hread).symm, hunused⟩

theorem ofDevice_ne_duplicate {e : Device.Error} (h : e ≠ duplicate u) :
    Error.ofDevice e ≠ .device (duplicate u) := by
  cases e with
  | readOnly name => nofun
  | _ => exact fun he => h (Error.device.inj he)

theorem refresh_ne_duplicate {e : Error} (h : r.refresh session.recorded s = (.error e, r', s'))
    (u : UniqueId) : e ≠ .device (duplicate u) := by
  unfold refresh at h
  split at h
  · rename_i hrun
    cases h
    exact ofDevice_ne_duplicate (slotTable_ne_duplicate (of_recorded hrun).1 u)
  · cases h

theorem settle_ne_duplicate {answer : Except Error Settled}
    (h : r.settle session.recorded u s = (answer, r', s')) (v : UniqueId) :
    (∀ e, answer = .error e → e ≠ .device (duplicate v)) ∧
      ∀ settled entry, answer = .ok settled →
        settled.answer entry ≠ .error (.device (duplicate v)) := by
  unfold settle at h
  split at h
  · rename_i hrun
    cases h
    refine ⟨nofun, fun settled entry hsettled he => refresh_ne_duplicate hrun v ?_⟩
    rw [← Except.ok.inj hsettled] at he
    exact Except.error.inj he
  · split at h
    · cases h
      refine ⟨nofun, fun settled entry hsettled he => ?_⟩
      rw [← Except.ok.inj hsettled] at he
      cases he
    · cases h
      refine ⟨fun e he hdevice => ?_, nofun⟩
      rw [hdevice] at he
      cases he

/-- An addition is not refused as a duplicate if its id is new. -/
theorem add_ne_duplicate (hnew : r.table.allocate.1 ∉ idsAt r.id s.1) (content : Record)
    (v : UniqueId) : (r.add session.recorded content s).1 ≠ .error (.device (duplicate v)) := by
  simp only [add]
  split
  · rename_i hadd
    exact fun he => ofDevice_ne_duplicate (addRecord_ne_duplicate hnew (of_recorded hadd).1 v)
      (Except.error.inj he)
  · split
    · rename_i hsettle
      exact fun he => (settle_ne_duplicate hsettle v).1 _ rfl (Except.error.inj he)
    · rename_i hsettle
      exact (settle_ne_duplicate hsettle v).2 _ _ rfl

/-- The entry of a record that was added is under the id given out for it. -/
theorem uniqueId_add {entry : Entry} {content : Record}
    (h : (r.add session.recorded content s).1 = .ok entry) :
    entry.uniqueId = r.table.allocate.1 := by
  simp only [add] at h
  split at h
  · cases h
  · split at h
    · cases h
    · rename_i settled r₁ s₁ hsettle
      unfold Settled.answer at h
      split at h <;> cases h
      rfl

/-- **Ids of added records are fresh.**  A replica has been loaded, and behind that it was edited
and the faults of the device switched, in any order; so its table may not have been fetched for any
number of edits.  The id that the next addition takes is not zero.  As long as the allocator has not
been taken past the largest id, which no `2 ^ 32 - 2` additions can do, it is not the id of a record
on the device, it is greater than the ids that the earlier additions took, and the addition is not
refused as a duplicate. -/
theorem add_fresh {name : String} {d : Device} {s₁ : Device × List Exchange}
    (loaded : load session.recorded name (d, []) = (.ok r, s₁)) (history : List (Turn Device))
    (switches : ∀ change, Turn.foreign change ∈ history → Switches change) (content : Record) :
    let (r', s') := turns session (r, s₁) history
    let earlier := allotted session history (r, s₁)
    let u := r'.table.allocate.1
    let (answer, _) := r'.add session.recorded content s'
    u ≠ 0 ∧ (∀ entry, answer = .ok entry → entry.uniqueId = u) ∧
    (SlotTable.travel 0 (earlier ++ [u]) < 2 ^ 64 →
      u ∉ idsAt r.id s'.1 ∧ (∀ v ∈ earlier, v < u) ∧
        ∀ v, answer ≠ .error (.device (duplicate v))) ∧
    (earlier.length < 2 ^ 32 - 2 → SlotTable.travel 0 (earlier ++ [u]) < 2 ^ 64) := by
  obtain ⟨hids, hunused⟩ := load_table loaded
  have hlast := lastNewId_turns session history (r, s₁)
  have htravel := travel_allotted_le session history (r, s₁)
  have hafter := turns_accounts (w := (r, s₁)) (accounted_of_ids hids) history switches
  rcases hturns : turns session (r, s₁) history with ⟨r', s'⟩
  rw [hturns] at hlast hafter
  simp only [hunused] at hlast htravel hafter
  generalize allotted session history (r, s₁) = earlier at hlast htravel hafter
  have hsum := SlotTable.travel_concat 0 earlier r'.table.allocate.1
  rw [← hlast] at hsum
  refine ⟨r'.table.allocate_fresh.1, fun entry => uniqueId_add, fun hshort => ?_, fun hfew => ?_⟩
  · have hshort : (0 : UniqueId).toNat + SlotTable.travel 0 (earlier ++ [r'.table.allocate.1])
        < UInt64.size := by simpa using hshort
    have hgrow := SlotTable.pairwise_of_travel hshort
    rw [← List.cons_append, List.pairwise_append] at hgrow
    have hlarger : ∀ v ∈ 0 :: earlier, v < r'.table.allocate.1 := fun v hv =>
      hgrow.2.2 v hv _ (List.mem_singleton_self _)
    obtain ⟨hid, haccounted⟩ := hafter (by omega)
    have hnew := haccounted.allocate_new (hlarger _ (hlast ▸ List.getLastD_mem_cons))
    exact ⟨hid ▸ hnew, fun v hv => hlarger v (List.mem_cons_of_mem _ hv),
      add_ne_duplicate hnew content⟩
  · have hlooks := r'.table.looks_allocate_le_reach
    have hround : (earlier.length + 1) * SlotTable.reach < 2 ^ 64 :=
      Nat.lt_of_le_of_lt (Nat.mul_le_mul_right _ hfew) (by decide)
    rw [Nat.succ_mul] at hround
    omega

/-- Three additions, the last of them refused, while the table cannot be fetched: the next id is
none of the two on the device that the table does not list. -/
theorem add_fresh_stale :
    let memo (u : UniqueId) : Record := ⟨"Memos", u, 0, ⟨#[1]⟩⟩
    let d : Device :=
      { databases := [{ name := "Memos", records := Slots.numbered 0 [memo 1, memo 3] }] }
    let switch (change : Database → Database) (d : Device) : Device :=
      { d with databases := d.databases.map change }
    let history : List (Turn Device) :=
      [.foreign (switch fun db => { db with refusingSlotTable := true }), .own (.add (memo 0)),
        .own (.add (memo 0)), .foreign (switch fun db => { db with failingAdds := true }),
        .own (.add (memo 0)), .foreign (switch fun db => { db with failingAdds := false })]
    ∃ r s₁, load session.recorded "Memos" (d, []) = (.ok r, s₁) ∧
      let (r', s') := turns session (r, s₁) history
      r'.stale = true ∧ r'.table.ids.values = [1, 3] ∧ idsAt r.id s'.1 = [1, 3, 2, 4] ∧
        r'.table.allocate.1 ∉ idsAt r.id s'.1 ∧ (∀ v ∈ [2, 4, 5], v < r'.table.allocate.1) ∧
        ∀ v, (r'.add session.recorded (memo 0) s').1 ≠ .error (.device (duplicate v)) := by
  intro memo d switch history
  obtain ⟨r, s₁, hload, h⟩ := exists_of_answersWith (load session.recorded "Memos" (d, []))
    (fun r s₁ =>
      let (r', s') := turns session (r, s₁) history
      decide (r'.stale = true ∧ r'.table.ids.values = [1, 3] ∧ idsAt r.id s'.1 = [1, 3, 2, 4] ∧
        allotted session history (r, s₁) = [2, 4, 5]))
    (by decide +kernel)
  obtain ⟨hstale, hlisted, hids, hearlier⟩ := of_decide_eq_true h
  have hswitch : ∀ change, Turn.foreign change ∈ history → Switches change := by
    intro change hmem d
    simp only [history, List.mem_cons, List.not_mem_nil, Turn.foreign.injEq, reduceCtorEq,
      or_false, false_or] at hmem
    rcases hmem with rfl | rfl | rfl <;>
      simp [holdings, switch, Function.comp_def]
  obtain ⟨-, -, hfresh, hfew⟩ := add_fresh hload history hswitch (memo 0)
  obtain ⟨hnew, hlarger, hadd⟩ := hfresh (hfew (by rw [hearlier]; decide))
  exact ⟨r, s₁, hload, hstale, hlisted, hids, hnew, hearlier ▸ hlarger, hadd⟩

end Replica

end Palmtop
