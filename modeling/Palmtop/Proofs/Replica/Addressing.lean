import Palmtop.Proofs.Replica.Accepting
import Palmtop.Proofs.Replica.Replacing

/-! # Entries address records by their ids

The slot in an entry may be many renumberings old, and the table of the replica older than the last
mutation.  None of this matters once the session accepts commands again: an edit looks for the slot
by the id alone and fetches the table first if the replica is stale.  So both edits of an entry find
the record of its id if there is one (`Finds`), and if there is none they say so and change nothing
(`Misses`), whatever has failed before (`editAll_finds`).

Adding a record does not look, and gives out ids by the table in hand.  Unless the replica is stale
the id is new.  A stale one may give out the id of a record it put on the device itself, behind the
fetch that it has (`add_under_taken_id`); such an addition is refused.
-/
namespace Palmtop.Replica
open Device

variable {σ : Type} {session : Session σ} {name : String} {id : DatabaseId}
  {view : σ → Slots Record} {r : Replica} {s : σ × List Exchange} {n : Nat}

/-! ## Looking -/

theorem refresh_accepted (hosts : Hosts session name id view) (hid : r.id = id)
    (haccepts : Accepts session name id view (n + 1) s.1) :
    ∃ table s', r.refresh session.recorded s = (.ok (), r.moved table, s') ∧
      view s'.1 = view s.1 ∧ table.ids = (view s'.1).map (·.uniqueId) ∧
      Accepts session name id view n s'.1 := by
  subst hid
  obtain ⟨fresh, s', hrun, hrest⟩ := haccepts.run (c := .slotTable r.id) rfl
  have hrun : session.recorded.slotTable r.id s = (.ok fresh, s') := hrun
  obtain ⟨hids, hv⟩ := hosts.recorded.slotTable hrun
  exact ⟨r.table.refresh fresh, s', by simp only [refresh, hrun, Replica.moved], hv,
    by rw [SlotTable.ids_refresh, hids, hv], hrest⟩

/-- Behind an accepted mutation the slot of its record is found. -/
theorem settle_accepted (hosts : Hosts session name id view) (hid : r.id = id)
    (haccepts : Accepts session name id view (n + 1) s.1)
    (hn : ((view s.1).values.map (·.uniqueId)).Nodup) {x : Record} (hx : x ∈ (view s.1).values) :
    ∃ slot r' s', r.settle session.recorded x.uniqueId s = (.ok ⟨some slot, none⟩, r', s') ∧
      (view s'.1).get? slot = some x ∧ Accepts session name id view n s'.1 := by
  obtain ⟨table, s', hrun, hv, ht, hrest⟩ := refresh_accepted hosts hid haccepts
  obtain ⟨slot, hslot, hget⟩ := slotOf?_of_mem ht (hv ▸ hn) (hv ▸ hx)
  have hmoved : (r.moved table).table.slotOf? x.uniqueId = some slot := hslot
  exact ⟨slot, r.moved table, s', by simp only [settle, hrun, hmoved], hget, hrest⟩

/-- What looking for a record comes to: its slot, or that there is none of its id. -/
inductive Located (records : Slots Record) (u : UniqueId) : Except Error Slot → Prop where
  | found {slot : Slot} {old : Record} (hslot : records.get? slot = some old)
      (hold : old.uniqueId = u) : Located records u (.ok slot)
  | missing (hgone : u ∉ records.values.map (·.uniqueId)) :
      Located records u (.error (.staleEntry u))

/-- A replica that is not stale looks into its table. -/
theorem InStep.located (session : Session σ) (h : InStep name id view r s) (hs : r.stale = false)
    (u : UniqueId) :
    ∃ answer, r.currentSlot session.recorded u s = (answer, r, s) ∧
      Located (view s.1) u answer := by
  cases hslot : r.table.slotOf? u with
  | none =>
    refine ⟨_, by simp [currentSlot, hs, hslot], .missing ?_⟩
    rwa [SlotTable.slotOf?_eq_none_iff, h.table hs, Slots.values_map] at hslot
  | some slot =>
    obtain ⟨old, hget, hold⟩ := h.found hs hslot
    exact ⟨_, by simp [currentSlot, hs, hslot], .found hget hold⟩

theorem currentSlot_accepted (hosts : Hosts session name id view) (h : InStep name id view r s)
    (haccepts : Accepts session name id view (n + 1) s.1) (u : UniqueId) :
    ∃ answer r' s', r.currentSlot session.recorded u s = (answer, r', s') ∧
      InStep name id view r' s' ∧ view s'.1 = view s.1 ∧ Accepts session name id view n s'.1 ∧
      Located (view s'.1) u answer := by
  cases hs : r.stale with
  | false =>
    obtain ⟨answer, hrun, hlocated⟩ := h.located session hs u
    exact ⟨answer, r, s, hrun, h, rfl, haccepts.mono (Nat.le_succ n), hlocated⟩
  | true =>
    -- a stale replica looks as the one behind the fetch does
    obtain ⟨table, s', hrefresh, hv, ht, hrest⟩ := refresh_accepted hosts h.covers.sameId haccepts
    have h' : InStep name id view (r.moved table) s' := (hv ▸ h.covers).moved ht
    obtain ⟨answer, hrun, hlocated⟩ := h'.located session rfl u
    have hsame : r.currentSlot session.recorded u s
        = (r.moved table).currentSlot session.recorded u s' := by
      simp [currentSlot, hs, hrefresh, moved]
    exact ⟨answer, _, s', hsame.trans hrun, h', hv, hrest, hlocated⟩

/-! ## Edits that answer -/

/-- The record is where the entry answered says, and `n` more commands are accepted. -/
def Placed (session : Session σ) (name : String) (id : DatabaseId) (view : σ → Slots Record)
    (n : Nat) (x : Record) (run : Except Error Entry × Replica × σ × List Exchange) : Prop :=
  ∃ slot, run.1 = .ok ⟨slot, x⟩ ∧ (view run.2.2.1).get? slot = some x ∧
    Accepts session name id view n run.2.2.1

theorem overwriteInPlace_placed (hosts : Hosts session name id view) (h : InStep name id view r s)
    (haccepts : Accepts session name id view (n + 2) s.1) {x old : Record} {slot : Slot}
    (hdb : x.database = name) (hslot : (view s.1).get? slot = some old)
    (hold : old.uniqueId = x.uniqueId) :
    Placed session name id view n x (r.overwriteInPlace session.recorded slot x s) := by
  obtain rfl := h.covers.sameId
  obtain ⟨⟨⟩, s₁, hwrite, hrest⟩ :=
    haccepts.run (c := .writeRecord r.id slot x) ⟨rfl, hdb, old, hslot, hold⟩
  have hwrite : session.recorded.writeRecord r.id slot x s = (.ok (), s₁) := hwrite
  obtain ⟨hperm, hmem⟩ := values_written hosts h.covers hdb hslot hold hwrite
  have hn := (h.covers.overwritten (e := ⟨slot, x⟩) hperm).distinct
  obtain ⟨slot', r', s', hsettle, hget, hrest⟩ := settle_accepted hosts rfl hrest hn hmem
  simp only [overwriteInPlace, hwrite, hsettle]
  exact ⟨slot', rfl, hget, hrest⟩

/-- A record of a new id is added and settled. -/
theorem settle_added (hosts : Hosts session name id view) (hid : r.id = id)
    (haccepts : Accepts session name id view (n + 2) s.1)
    (hn : ((view s.1).values.map (·.uniqueId)).Nodup) {x : Record} (hdb : x.database = name)
    (hnew : x.uniqueId ∉ (view s.1).values.map (·.uniqueId)) :
    ∃ s₁ slot r' s', session.recorded.addRecord r.id x s = (.ok (), s₁) ∧
      r.settle session.recorded x.uniqueId s₁ = (.ok ⟨some slot, none⟩, r', s') ∧
      (view s'.1).get? slot = some x ∧ Accepts session name id view n s'.1 := by
  subst hid
  obtain ⟨⟨⟩, s₁, hadd, hrest⟩ := haccepts.run (c := .addRecord r.id x) ⟨rfl, hdb, hnew⟩
  have hadd : session.recorded.addRecord r.id x s = (.ok (), s₁) := hadd
  obtain ⟨-, hperm⟩ := hosts.recorded.addRecord hdb hadd
  have hn' := (hperm.map _).nodup_iff.mpr (List.nodup_cons.mpr ⟨hnew, hn⟩)
  obtain ⟨slot, r', s', hsettle, hget, hrest⟩ :=
    settle_accepted hosts rfl hrest hn' (hperm.symm.subset List.mem_cons_self)
  exact ⟨s₁, slot, r', s', hadd, hsettle, hget, hrest⟩

theorem overwriteByReplacing_placed (hosts : Hosts session name id view)
    (h : InStep name id view r s) (haccepts : Accepts session name id view (n + 4) s.1)
    {x old : Record} {slot : Slot} (hdb : x.database = name)
    (hslot : (view s.1).get? slot = some old) (hold : old.uniqueId = x.uniqueId) :
    Placed session name id view n x (r.overwriteByReplacing session.recorded slot x s) := by
  obtain rfl := h.covers.sameId
  obtain ⟨⟨⟩, s₁, hdelete, hrest⟩ :=
    haccepts.run (c := .deleteRecord r.id slot) ⟨rfl, old, hslot⟩
  have hdelete : session.recorded.deleteRecord r.id slot s = (.ok (), s₁) := hdelete
  have hperm := values_deleted hosts h.covers hslot hold hdelete
  simp only [overwriteByReplacing, hdelete]
  generalize hr₁ : ({ r with entries := r.entries.eraseP (·.uniqueId == x.uniqueId) } : Replica)
    = r₁
  have hid : r₁.id = r.id := by rw [← hr₁]
  obtain ⟨table, s₂, hrefresh, hv, -, hrest⟩ := refresh_accepted hosts hid hrest
  -- the old record is gone, so that the id is free for the new one
  have hgone : x.uniqueId ∉ (view s₂.1).values.map (·.uniqueId) := by
    rw [hv]
    exact notMem_ids_of_perm_filter hperm
  have hn : ((view s₂.1).values.map (·.uniqueId)).Nodup := by
    rw [hv]
    exact (hperm.map _).nodup_iff.mpr
      ((List.filter_sublist.map Record.uniqueId).nodup h.covers.distinct)
  have hid₂ : (r₁.moved table).id = r.id := hid
  obtain ⟨s₃, slot', r', s', hadd, hsettle, hget, hrest⟩ :=
    settle_added hosts hid₂ hrest hn hdb hgone
  simp only [hrefresh, hadd, hsettle]
  exact ⟨slot', rfl, hget, hrest⟩

/-- The most commands an edit issues. -/
def editCommands : Nat := 5

theorem overwrite_placed (hosts : Hosts session name id view) (h : InStep name id view r s)
    (haccepts : Accepts session name id view (n + editCommands) s.1) {entry : Entry}
    (hmem : entry.uniqueId ∈ (view s.1).values.map (·.uniqueId)) (content : Record) :
    Placed session name id view n (r.ownRecord entry.uniqueId content)
      (r.overwrite session.recorded entry content s) := by
  obtain ⟨answer, r₁, s₁, hcurrent, h₁, hv, hrest, hlocated⟩ :=
    currentSlot_accepted (n := n + 4) hosts h haccepts entry.uniqueId
  simp only [overwrite, hcurrent]
  cases hlocated with
  | missing hgone => exact absurd hmem (hv ▸ hgone)
  | found hslot hold =>
    have hdb : (r.ownRecord entry.uniqueId content).database = name := h.covers.sameName
    simp only
    split
    · exact overwriteInPlace_placed hosts h₁ (hrest.mono (by omega)) hdb hslot hold
    · exact overwriteByReplacing_placed hosts h₁ hrest hdb hslot hold

theorem delete_answers (hosts : Hosts session name id view) (h : InStep name id view r s)
    (haccepts : Accepts session name id view editCommands s.1) {entry : Entry}
    (hmem : entry.uniqueId ∈ (view s.1).values.map (·.uniqueId)) :
    (r.delete session.recorded entry s).1 = .ok () := by
  obtain ⟨answer, r₁, s₁, hcurrent, h₁, hv, hrest, hlocated⟩ :=
    currentSlot_accepted (n := 4) hosts h haccepts entry.uniqueId
  simp only [delete, hcurrent]
  cases hlocated with
  | missing hgone => exact absurd hmem (hv ▸ hgone)
  | found hslot hold =>
    obtain rfl := h₁.covers.sameId
    obtain ⟨⟨⟩, s₂, hdelete, hrest⟩ :=
      hrest.run (c := .deleteRecord r₁.id _) ⟨rfl, _, hslot⟩
    have hdelete : session.recorded.deleteRecord r₁.id _ s₁ = (.ok (), s₂) := hdelete
    simp only [hdelete]
    generalize hr₂ : ({ r₁ with entries := r₁.entries.filter (·.uniqueId != entry.uniqueId) } :
      Replica) = r₂
    have hid : r₂.id = r₁.id := by rw [← hr₂]
    obtain ⟨table, s₃, hrefresh, -⟩ := refresh_accepted hosts hid hrest
    rw [hrefresh]

/-! An addition is its first command and what settles the record. -/

section add
variable {σ : Type} {session : Session σ} {content : Record} {s s₁ s' : σ} {r' : Replica}

theorem add_of_refused {e : Device.Error}
    (hadd : session.addRecord r.id (r.ownRecord r.table.allocate.1 content) s = (.error e, s₁)) :
    r.add session content s
      = (.error (.ofDevice e), { r with table := r.table.allocate.2 }, s₁) := by
  have hadd : session.addRecord r.id
    (({ r with table := r.table.allocate.2 } : Replica).ownRecord r.table.allocate.1 content) s
      = (.error e, s₁) := hadd
  simp only [add, hadd]

theorem add_of_settled {settled : Settled}
    (hadd : session.addRecord r.id (r.ownRecord r.table.allocate.1 content) s = (.ok (), s₁))
    (hsettle : ({ r with table := r.table.allocate.2 } : Replica).settle session
      r.table.allocate.1 s₁ = (.ok settled, r', s')) :
    ∃ entry, entry = ⟨settled.slot.getD 0, r.ownRecord r.table.allocate.1 content⟩ ∧
      r.add session content s
        = (settled.answer entry, { r' with entries := entry :: r'.entries }, s') := by
  have hadd : session.addRecord r.id
    (({ r with table := r.table.allocate.2 } : Replica).ownRecord r.table.allocate.1 content) s
      = (.ok (), s₁) := hadd
  exact ⟨_, rfl, by simp only [add, hadd, hsettle]; rfl⟩

end add

theorem add_placed (hosts : Hosts session name id view) (h : InStep name id view r s)
    (haccepts : Accepts session name id view (n + 2) s.1)
    (hnew : r.table.allocate.1 ∉ (view s.1).values.map (·.uniqueId)) (content : Record) :
    Placed session name id view n (r.ownRecord r.table.allocate.1 content)
      (r.add session.recorded content s) := by
  have hid : ({ r with table := r.table.allocate.2 } : Replica).id = id := h.covers.sameId
  have hdb : (r.ownRecord r.table.allocate.1 content).database = name := h.covers.sameName
  obtain ⟨s₁, slot, r', s', hadd, hsettle, hget, hrest⟩ :=
    settle_added hosts hid haccepts h.covers.distinct hdb hnew
  obtain ⟨entry, rfl, hrun⟩ := add_of_settled hadd hsettle
  rw [hrun]
  exact ⟨slot, rfl, hget, hrest⟩

/-! ## The records behind an edit that answered -/

theorem Effect.recordOf_added {x : Record} {after : Replica × σ × List Exchange}
    {log : List Exchange} (hn : ((view s.1).values.map (·.uniqueId)).Nodup)
    (hnew : x.uniqueId ∉ (view s.1).values.map (·.uniqueId))
    (h : Effect view r s after (.added x) log) :
    recordOf (view after.2.1) = Function.update (recordOf (view s.1)) x.uniqueId (some x) := by
  have hn' : (((Change.added x).records (view s.1).values).map (·.uniqueId)).Nodup :=
    List.nodup_cons.mpr ⟨hnew, hn⟩
  funext v
  rw [recordOf_of_perm hn' h.device, Function.update_apply, Change.records, List.find?_cons]
  by_cases hv : v = x.uniqueId
  · simp [hv]
  · have hne : (x.uniqueId == v) = false := beq_false_of_ne (Ne.symm hv)
    simp [hv, hne, recordOf]

theorem recordOf_overwrite (hosts : Hosts session name id view) (h : InStep name id view r s)
    {entry : Entry} (hmem : entry.uniqueId ∈ (view s.1).values.map (·.uniqueId)) {content : Record}
    (hanswered : accepted (r.overwrite session.recorded entry content s).1 = true) :
    recordOf (view (r.overwrite session.recorded entry content s).2.2.1)
      = Function.update (recordOf (view s.1)) entry.uniqueId
        (some (r.ownRecord entry.uniqueId content)) := by
  obtain ⟨old, hold, hid⟩ := List.mem_map.mp hmem
  have hbefore : recordOf (view s.1) entry.uniqueId = some old := by
    rw [recordOf, find?_uniqueId_eq_some h.covers.distinct]
    exact ⟨hold, hid⟩
  obtain ⟨looks, -, hunfound | ⟨slot, change, log, hcourse, hran⟩⟩ :=
    overwrite_course hosts h entry content
  · rw [hunfound.answered] at hanswered
    cases hanswered
  -- an edit that stopped on its way did not answer
  rw [hcourse.answered] at hanswered
  suffices hchange : change = .replaced (r.ownRecord entry.uniqueId content) by
    rw [hchange] at hcourse
    exact hcourse.toEffect.recordOf_replaced (x := r.ownRecord entry.uniqueId content)
      h.covers.distinct hbefore
  split at hran
  · cases hran with
    | refused => simp at hanswered
    | written fetched => rfl
  · cases hran with
    | refused | cutOff | notAdded => simp at hanswered
    | added fetched => rfl

theorem recordOf_delete (hosts : Hosts session name id view) (h : InStep name id view r s)
    {entry : Entry} (hanswered : accepted (r.delete session.recorded entry s).1 = true) :
    recordOf (view (r.delete session.recorded entry s).2.2.1)
      = Function.update (recordOf (view s.1)) entry.uniqueId none := by
  obtain ⟨looks, -, hunfound | ⟨slot, change, log, hcourse, hran⟩⟩ := delete_course hosts h entry
  · rw [hunfound.answered] at hanswered
    cases hanswered
  rw [hcourse.answered] at hanswered
  cases hran with
  | refused => simp at hanswered
  | deleted fetched => exact hcourse.toEffect.recordOf_removed h.covers.distinct

theorem recordOf_add (hosts : Hosts session name id view) (h : InStep name id view r s)
    (hnew : r.table.allocate.1 ∉ (view s.1).values.map (·.uniqueId)) {content : Record}
    (hanswered : accepted (r.add session.recorded content s).1 = true) :
    recordOf (view (r.add session.recorded content s).2.2.1)
      = Function.update (recordOf (view s.1)) r.table.allocate.1
        (some (r.ownRecord r.table.allocate.1 content)) := by
  obtain ⟨change, log, hran, hcourse⟩ := add_course hosts h content
  rw [hcourse.answered] at hanswered
  cases hran with
  | refused => simp at hanswered
  | added fetched => exact hcourse.toEffect.recordOf_added h.covers.distinct hnew

/-! ## Entries -/

/-- The record is on the device under its id, in place of one there was, and the entry answered says
where; nothing else has changed. -/
structure Put (view : σ → Slots Record) (s : σ × List Exchange) (x : Record)
    (run : Except Error Entry × Replica × σ × List Exchange) : Prop where
  answer : ∃ slot, run.1 = .ok ⟨slot, x⟩ ∧ (view run.2.2.1).get? slot = some x
  device : recordOf (view run.2.2.1) = Function.update (recordOf (view s.1)) x.uniqueId (some x)

/-- The record of this id is gone from the device, and nothing else has changed. -/
structure Removed (view : σ → Slots Record) (s : σ × List Exchange) (u : UniqueId)
    (run : Except Error Unit × Replica × σ × List Exchange) : Prop where
  answer : run.1 = .ok ()
  device : recordOf (view run.2.2.1) = Function.update (recordOf (view s.1)) u none

/-- There is no record of this id, and nothing has changed. -/
structure NotThere {α : Type} (view : σ → Slots Record) (r : Replica) (s : σ × List Exchange)
    (u : UniqueId) (run : Except Error α × Replica × σ × List Exchange) : Prop where
  answer : run.1 = .error (.staleEntry u)
  device : view run.2.2.1 = view s.1
  entries : run.2.1.entries.map (·.record) = r.entries.map (·.record)

/-- Both edits of the entry find its record. -/
structure Finds (session : Session σ) (name : String) (view : σ → Slots Record) (r : Replica)
    (s : σ × List Exchange) (entry : Entry) : Prop where
  overwritten (content : Record) :
    Put view s ⟨name, entry.uniqueId, content.recordType, content.payload⟩
      (r.overwrite session.recorded entry content s)
  deleted : Removed view s entry.uniqueId (r.delete session.recorded entry s)

/-- Both edits of the entry find no record. -/
structure Misses (session : Session σ) (view : σ → Slots Record) (r : Replica)
    (s : σ × List Exchange) (entry : Entry) : Prop where
  overwritten (content : Record) :
    NotThere view r s entry.uniqueId (r.overwrite session.recorded entry content s)
  deleted : NotThere view r s entry.uniqueId (r.delete session.recorded entry s)

theorem Placed.answered {x : Record} {run : Except Error Entry × Replica × σ × List Exchange}
    (h : Placed session name id view n x run) : accepted run.1 = true := by
  obtain ⟨slot, hanswer, -⟩ := h
  rw [hanswer]
  rfl

/-- A record of the replica's own belongs to its database. -/
theorem Covers.ownRecord {records : Slots Record} (h : Covers name id r records) (u : UniqueId)
    (content : Record) :
    r.ownRecord u content = ⟨name, u, content.recordType, content.payload⟩ := by
  rw [Replica.ownRecord, h.sameName]
  rfl

theorem InStep.finds (hosts : Hosts session name id view) (h : InStep name id view r s)
    (haccepts : Accepts session name id view editCommands s.1) {entry : Entry}
    (hmem : entry.uniqueId ∈ (view s.1).values.map (·.uniqueId)) :
    Finds session name view r s entry where
  overwritten content := by
    have hplaced := overwrite_placed (n := 0) hosts h (by simpa using haccepts) hmem content
    have hdevice := recordOf_overwrite hosts h hmem hplaced.answered
    obtain ⟨slot, hanswer, hget, -⟩ := hplaced
    rw [h.covers.ownRecord] at hanswer hget hdevice
    exact ⟨⟨slot, hanswer, hget⟩, hdevice⟩
  deleted := by
    have hanswer := delete_answers hosts h haccepts hmem
    exact ⟨hanswer, recordOf_delete hosts h (by rw [hanswer]; rfl)⟩

theorem InStep.misses (hosts : Hosts session name id view) (h : InStep name id view r s)
    (haccepts : Accepts session name id view editCommands s.1) {entry : Entry}
    (hgone : entry.uniqueId ∉ (view s.1).values.map (·.uniqueId)) :
    Misses session view r s entry := by
  obtain ⟨answer, r₁, s₁, hcurrent, h₁, hv, -, hlocated⟩ :=
    currentSlot_accepted (n := 4) hosts h haccepts entry.uniqueId
  obtain ⟨looks, -, -, hlook⟩ := currentSlot_effect hosts h.covers.sameId entry.uniqueId s
  rw [hcurrent] at hlook
  cases hlocated with
  | found hslot hold =>
    rw [hv] at hslot
    exact absurd (List.mem_map.mpr ⟨_, Slots.mem_values_of_get? hslot, hold⟩) hgone
  | missing _ =>
    constructor
    · intro content
      simp only [overwrite, hcurrent]
      exact ⟨rfl, hv, hlook.entries⟩
    · simp only [delete, hcurrent]
      exact ⟨rfl, hv, hlook.entries⟩

/-! ## Additions -/

/-- Unless the replica is stale, the id given out is new. -/
theorem InStep.allocate_new (h : InStep name id view r s) (hs : r.stale = false) :
    r.table.allocate.1 ∉ (view s.1).values.map (·.uniqueId) := by
  rw [← Slots.values_map, ← h.table hs]
  exact r.table.allocate_fresh.2

theorem InStep.add_put (hosts : Hosts session name id view) (h : InStep name id view r s)
    (haccepts : Accepts session name id view editCommands s.1)
    (hnew : r.table.allocate.1 ∉ (view s.1).values.map (·.uniqueId)) (content : Record) :
    Put view s ⟨name, r.table.allocate.1, content.recordType, content.payload⟩
      (r.add session.recorded content s) := by
  have hplaced := add_placed (n := 3) hosts h haccepts hnew content
  have hdevice := recordOf_add hosts h hnew hplaced.answered
  obtain ⟨slot, hanswer, hget, -⟩ := hplaced
  rw [h.covers.ownRecord] at hanswer hget hdevice
  exact ⟨⟨slot, hanswer, hget⟩, hdevice⟩

/-- An addition under the id of a record that is there is refused. -/
theorem add_refused (hosts : Hosts session name id view) (h : InStep name id view r s)
    (htaken : r.table.allocate.1 ∈ (view s.1).values.map (·.uniqueId)) (content : Record) :
    ∃ e after, r.add session.recorded content s = (.error (.ofDevice e), after) ∧
      view after.2.1 = view s.1 ∧ after.1.entries = r.entries := by
  obtain rfl := h.covers.sameId
  have hdb : (r.ownRecord r.table.allocate.1 content).database = name := h.covers.sameName
  rcases hadd : session.recorded.addRecord r.id (r.ownRecord r.table.allocate.1 content) s with
    ⟨e | _, s₁⟩
  · exact ⟨e, _, add_of_refused hadd, hosts.recorded.refused hadd, rfl⟩
  · exact absurd htaken (hosts.recorded.addRecord hdb hadd).1

/-! ## Runs -/

/-- The entry answered can be edited at once. -/
theorem Placed.finds (hosts : Hosts session name id view) {x : Record} {e : Entry}
    (h : Placed session name id view editCommands x (.ok e, r, s)) (hin : InStep name id view r s) :
    Finds session name view r s e := by
  obtain ⟨slot, hanswer, hget, haccepts⟩ := h
  obtain rfl := Except.ok.inj hanswer
  exact hin.finds hosts haccepts (List.mem_map_of_mem (Slots.mem_values_of_get? hget))

theorem InStep.finds_overwritten (hosts : Hosts session name id view) (h : InStep name id view r s)
    (haccepts : Accepts session name id view (editCommands + editCommands) s.1)
    {entry e : Entry} {content : Record} {r' : Replica} {s' : σ × List Exchange}
    (hrun : r.overwrite session.recorded entry content s = (.ok e, r', s')) :
    Finds session name view r' s' e := by
  have h' := inStep_of_run (overwrite_inStep hosts h entry content) hrun
  by_cases hmem : entry.uniqueId ∈ (view s.1).values.map (·.uniqueId)
  · have hplaced := overwrite_placed hosts h haccepts hmem content
    rw [hrun] at hplaced
    exact hplaced.finds hosts h'
  · have hmisses := h.misses hosts (haccepts.mono (Nat.le_add_right _ _)) hmem
    have hstale := (hmisses.overwritten content).answer
    rw [hrun] at hstale
    cases hstale

theorem InStep.finds_added (hosts : Hosts session name id view) (h : InStep name id view r s)
    (haccepts : Accepts session name id view (editCommands + 2) s.1)
    {e : Entry} {content : Record} {r' : Replica} {s' : σ × List Exchange}
    (hrun : r.add session.recorded content s = (.ok e, r', s')) :
    Finds session name view r' s' e := by
  have h' := inStep_of_run (add_inStep hosts h content) hrun
  by_cases hnew : r.table.allocate.1 ∈ (view s.1).values.map (·.uniqueId)
  · obtain ⟨_, _, hrefused, -⟩ := add_refused hosts h hnew content
    rw [hrun] at hrefused
    cases hrefused
  · have hplaced := add_placed hosts h haccepts hnew content
    rw [hrun] at hplaced
    exact hplaced.finds hosts h'

/-- **Edits go to the record they name, however old the entry.**  After any edits, each of which
may have failed at any of its commands, the session accepts commands again.  Then every entry of a
record that is on the device, whatever its slot, can be overwritten, which puts the new record in
place of that one, and deleted, which takes it away; nothing else changes.  An entry of any other id
is stale, and nothing changes.  An addition puts one record more on the device, under the id given
out, unless that id is taken there already; this happens to a stale replica only, and then the
addition is refused.  The entry answered by an overwriting or an addition can be edited at once. -/
theorem editAll_finds (hosts : Hosts session name id view) {s : σ}
    (distinct : ((view s).values.map (·.uniqueId)).Nodup) {s₁ : σ × List Exchange}
    (loaded : load session.recorded name (s, []) = (.ok r, s₁)) {edits : List Edit}
    {r₂ : Replica} {s₂ : σ × List Exchange}
    (edited : editAll session.recorded edits r s₁ = (r₂, s₂))
    (accepts : Accepts session name id view (2 * editCommands) s₂.1) :
    let ids := (view s₂.1).values.map (·.uniqueId)
    let new := r₂.table.allocate.1
    (∀ entry : Entry, (entry.uniqueId ∈ ids → Finds session name view r₂ s₂ entry) ∧
      (entry.uniqueId ∉ ids → Misses session view r₂ s₂ entry)) ∧
    (∀ content : Record,
      (new ∉ ids → Put view s₂ ⟨name, new, content.recordType, content.payload⟩
        (r₂.add session.recorded content s₂)) ∧
      (new ∈ ids → r₂.stale = true ∧
        ∃ e after, r₂.add session.recorded content s₂ = (.error (.ofDevice e), after) ∧
          view after.2.1 = view s₂.1 ∧ after.1.entries = r₂.entries)) ∧
    ∀ (e : Entry) (r₃ : Replica) (s₃ : σ × List Exchange),
      ((∃ entry content, r₂.overwrite session.recorded entry content s₂ = (.ok e, r₃, s₃)) ∨
        ∃ content, r₂.add session.recorded content s₂ = (.ok e, r₃, s₃)) →
      Finds session name view r₃ s₃ e := by
  intro ids new
  have h₂ : InStep name id view r₂ s₂ := by
    obtain ⟨_, _, hrun, h⟩ := editAll_inStep hosts edits (load_inStep hosts distinct loaded)
    rw [edited] at hrun
    cases hrun
    exact h
  have hone : Accepts session name id view editCommands s₂.1 := accepts.mono (by decide)
  refine ⟨fun entry => ⟨h₂.finds hosts hone, h₂.misses hosts hone⟩, fun content => ⟨?_, ?_⟩, ?_⟩
  · exact fun hnew => h₂.add_put hosts hone hnew content
  · refine fun htaken => ⟨?_, add_refused hosts h₂ htaken content⟩
    by_contra hstale
    exact h₂.allocate_new (eq_false_of_ne_true hstale) htaken
  · rintro e r₃ s₃ (⟨entry, content, hrun⟩ | ⟨content, hrun⟩)
    · exact h₂.finds_overwritten hosts accepts hrun
    · exact h₂.finds_added hosts (accepts.mono (by decide)) hrun

/-- On a renumbering device the table cannot be fetched behind an addition; then commands are
accepted again, and the loaded entry, with the slot it had, finds its record. -/
theorem editAll_finds_stale :
    let task (u : UniqueId) : Record := ⟨"Tasks", u, 0, ⟨#[1]⟩⟩
    let d : Device :=
      { databases := [{ name := "Tasks", records := Slots.numbered 0 [task 1, task 2] }]
        renumbering := true }
    let session := (guarded "Tasks" 1).refusing
    -- what is let through: four commands of the loading, the addition, the fetch behind it not
    let plan := [false, false, false, false, false, true]
    ∃ r s₁, load session.recorded "Tasks" ((d, plan), []) = (.ok r, s₁) ∧
      ∃ r₂ s₂, editAll session.recorded [.add (task 0)] r s₁ = (r₂, s₂) ∧ r₂.stale = true ∧
        Accepts session "Tasks" 1 (fun s => recordsAt 1 s.1) (2 * editCommands) s₂.1 ∧
        (recordsAt 1 s₂.1.1).get? 0 = none ∧
        Finds session "Tasks" (fun s => recordsAt 1 s.1) r₂ s₂ ⟨0, task 1⟩ ∧
        Misses session (fun s => recordsAt 1 s.1) r₂ s₂ ⟨0, task 4⟩ ∧
        Put (fun s => recordsAt 1 s.1) s₂ (task 4) (r₂.add session.recorded (task 0) s₂) := by
  intro task d session plan
  obtain ⟨r, s₁, hload, h⟩ := exists_of_answersWith
    (load session.recorded "Tasks" ((d, plan), [])) (fun r s₁ =>
      let after := editAll session.recorded [.add (task 0)] r s₁
      decide (after.1.stale = true ∧ after.2.1.2 = [] ∧ after.2.1.1.Ready (2 * editCommands + 1) ∧
        (after.2.1.1.database? 1).map (·.name) = some "Tasks" ∧
        (recordsAt 1 after.2.1.1).get? 0 = none ∧ after.1.table.allocate.1 = 4 ∧
        (1 : UniqueId) ∈ (recordsAt 1 after.2.1.1).values.map (·.uniqueId) ∧
        (4 : UniqueId) ∉ (recordsAt 1 after.2.1.1).values.map (·.uniqueId))) (by decide +kernel)
  obtain ⟨hstale, hplan, hready, hname, hmoved, hnew, hmem, hgone⟩ := of_decide_eq_true h
  rcases hedited : editAll session.recorded [.add (task 0)] r s₁ with ⟨r₂, ⟨d₂, plan₂⟩, t₂⟩
  simp only [hedited] at hstale hplan hready hname hmoved hnew hmem hgone
  subst hplan
  have haccepts := (accepts_guarded hready hname).refusing
  obtain ⟨hentries, hadds, -⟩ := editAll_finds (hosts_guarded "Tasks" 1).refusing
    (s := (d, plan)) (by decide) hload hedited haccepts
  have hput := (hadds (task 0)).1 (by rw [hnew]; exact hgone)
  rw [hnew] at hput
  exact ⟨r, s₁, hload, r₂, _, hedited, hstale, haccepts, hmoved, (hentries ⟨0, task 1⟩).1 hmem,
    (hentries ⟨0, task 4⟩).2 hgone, hput⟩

/-- **A stale replica can give out an id that is taken.**  A record is replaced, and behind its
addition the table cannot be fetched; the one in hand is from between the deletion and the addition.
Then commands are accepted again, and a new record is to be added under the same id. -/
theorem add_under_taken_id :
    let task (n : UInt8) : Record := ⟨"Tasks", 1, 0, ⟨#[n]⟩⟩
    let d : Device := { databases := [{ name := "Tasks", records := Slots.numbered 0 [task 1] }] }
    let session := (guarded "Tasks" 1).refusing
    -- three commands of the loading, the deletion, the fetch behind it, the addition
    let plan := [false, false, false, false, false, false, true]
    ∃ r s₁, load session.recorded "Tasks" ((d, plan), []) = (.ok r, s₁) ∧
      let (r₂, s₂) := editAll session.recorded [.overwrite ⟨0, task 1⟩ (task 2)] r s₁
      Accepts session "Tasks" 1 (fun s => recordsAt 1 s.1) (2 * editCommands) s₂.1 ∧
      (r₂.add session.recorded (task 3) s₂).1
        = .error (.ofDevice (.rejected "duplicate unique ID 00000001")) ∧
      (recordsAt 1 (r₂.add session.recorded (task 3) s₂).2.2.1.1).values = [task 2] := by
  intro task d session plan
  obtain ⟨r, s₁, hload, h⟩ := exists_of_answersWith
    (load session.recorded "Tasks" ((d, plan), [])) (fun r s₁ =>
      let after := editAll session.recorded [.overwrite ⟨0, task 1⟩ (task 2)] r s₁
      let added := after.1.add session.recorded (task 3) after.2
      decide (after.2.1.2 = [] ∧ after.2.1.1.Ready (2 * editCommands + 1) ∧
        (after.2.1.1.database? 1).map (·.name) = some "Tasks" ∧
        added.1 = .error (.ofDevice (.rejected "duplicate unique ID 00000001")) ∧
        (recordsAt 1 added.2.2.1.1).values = [task 2])) (by decide +kernel)
  obtain ⟨hplan, hready, hname, hrefused, hvalues⟩ := of_decide_eq_true h
  refine ⟨r, s₁, hload, ?_⟩
  rcases hedited : editAll session.recorded [.overwrite ⟨0, task 1⟩ (task 2)] r s₁ with
    ⟨r₂, ⟨d₂, plan₂⟩, t₂⟩
  simp only [hedited] at hplan hready hname hrefused hvalues
  subst hplan
  exact ⟨(accepts_guarded hready hname).refusing, hrefused, hvalues⟩

end Palmtop.Replica
