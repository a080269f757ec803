import Palmtop.Proofs.Replica.Mirror

/-! # The courses an edit can take

An edit of a replica in step with its database does the same to the records of both
(`Change.records`), and the commands it issues tell what.  Overwriting a record where it is has two
courses (`InPlace`), replacing it by deletion and addition has four (`Replacing`): it can also end
between the two, with the record gone.

Before it issues a mutation an edit may look for a slot, which changes nothing.
-/
namespace Palmtop.Replica
open Device

variable {σ : Type} {session : Session σ} {name : String} {id : DatabaseId}
  {view : σ → Slots Record} {r : Replica} {s : σ × List Exchange}

/-! ## Changes -/

/-- What an edit does to the records. -/
inductive Change where
  | kept
  | added (x : Record)
  /-- The record of the same id has become this one. -/
  | replaced (x : Record)
  | removed (u : UniqueId)

/-- The records after a change; a new record comes first, every other stays where it was. -/
def Change.records : Change → List Record → List Record
  | .kept, l => l
  | .added x, l => x :: l
  | .replaced x, l => l.map fun y => if y.uniqueId = x.uniqueId then x else y
  | .removed u, l => l.filter fun y => y.uniqueId ≠ u

theorem Change.records_perm (c : Change) {l l' : List Record} (h : l.Perm l') :
    (c.records l).Perm (c.records l') := by
  cases c with
  | kept => exact h
  | added x => exact h.cons x
  | replaced x => exact h.map _
  | removed u => exact h.filter _

theorem Change.find?_removed (l : List Record) (u v : UniqueId) :
    ((Change.removed u).records l).find? (·.uniqueId == v)
      = if v = u then none else l.find? (·.uniqueId == v) := by
  simp only [records, List.find?_filter]
  split
  · rename_i hv
    subst hv
    exact List.find?_eq_none.mpr fun x _ => by simp
  · rename_i hv
    refine congrArg (l.find? ·) (funext fun x => ?_)
    by_cases hx : x.uniqueId = v
    · simp [hx, hv]
    · simp [hx]

/-- A record that replaces another is found in its place. -/
theorem Change.find?_replaced (l : List Record) (x : Record) (v : UniqueId) :
    ((Change.replaced x).records l).find? (·.uniqueId == v)
      = (l.find? (·.uniqueId == v)).map fun y => if v = x.uniqueId then x else y := by
  have hids : ((·.uniqueId == v) ∘ fun y : Record => if y.uniqueId = x.uniqueId then x else y)
      = (·.uniqueId == v) := by
    funext y
    by_cases hy : y.uniqueId = x.uniqueId <;> simp [hy]
  rw [records, List.find?_map, hids]
  cases hf : l.find? (·.uniqueId == v) with
  | none => rfl
  | some y =>
    have hy : y.uniqueId = v := by simpa using List.find?_some hf
    rw [Option.map_some, Option.map_some, hy]

/-- How an edit led from one state to another: the change, made to the records of the device and of
the replica alike, and the exchanges of the edit, newest first. -/
structure Effect (view : σ → Slots Record) (r : Replica) (s : σ × List Exchange)
    (after : Replica × σ × List Exchange) (change : Change) (log : List Exchange) : Prop where
  device : (view after.2.1).values.Perm (change.records (view s.1).values)
  entries : after.1.entries.map (·.record) = change.records (r.entries.map (·.record))
  transcript : after.2.2 = log ++ s.2

theorem Effect.kept_of_run {c : Command} {answer : Except Device.Error c.Answer}
    {s' : σ × List Exchange} (hrun : session.recorded.run c s = (answer, s'))
    (hv : view s'.1 = view s.1) {r' : Replica}
    (hr : r'.entries.map (·.record) = r.entries.map (·.record)) :
    Effect view r s (r', s') .kept [⟨c, accepted answer⟩] where
  device := by
    rw [hv]
    exact .refl _
  entries := hr
  transcript := (of_recorded hrun).2

/-- What comes behind a look. -/
theorem Effect.after_look {r' : Replica} {s' : σ × List Exchange} {change : Change}
    {after : Replica × σ × List Exchange} {looks log : List Exchange}
    (look : Effect view r s (r', s') .kept looks) (h : Effect view r' s' after change log) :
    Effect view r s after change (log ++ looks) where
  device := h.device.trans (change.records_perm look.device)
  entries := by rw [h.entries, look.entries]; rfl
  transcript := by rw [h.transcript, look.transcript, List.append_assoc]

/-- What a look comes behind. -/
theorem Effect.then_look {r' : Replica} {s' : σ × List Exchange} {change : Change}
    {after : Replica × σ × List Exchange} {looks log : List Exchange}
    (h : Effect view r s (r', s') change log) (look : Effect view r' s' after .kept looks) :
    Effect view r s after change (looks ++ log) where
  device := look.device.trans h.device
  entries := look.entries.trans h.entries
  transcript := by rw [look.transcript, h.transcript, List.append_assoc]

/-! ## Looking -/

/-- Fetching the table keeps every record. -/
theorem refresh_effect (hosts : Hosts session name id view) (hid : r.id = id)
    (s : σ × List Exchange) :
    Effect view r s (r.refresh session.recorded s).2 .kept
      [⟨.slotTable id, accepted (r.refresh session.recorded s).1⟩] := by
  subst hid
  cases hrun : session.recorded.slotTable r.id s with
  | mk answer s' =>
    cases answer with
    | error e =>
      simp only [refresh, hrun]
      exact Effect.kept_of_run hrun (hosts.recorded.refused hrun) rfl
    | ok fresh =>
      simp only [refresh, hrun]
      refine Effect.kept_of_run hrun (hosts.recorded.slotTable hrun).2 ?_
      simp [Function.comp_def]

/-- A record that is settled is settled by one fetch. -/
theorem refresh_of_settle {u : UniqueId} {settled : Settled} {after : Replica × σ × List Exchange}
    (h : r.settle session.recorded u s = (.ok settled, after)) :
    (r.refresh session.recorded s).2 = after ∧
      accepted (r.refresh session.recorded s).1 = settled.failure.isNone := by
  unfold settle at h
  split at h
  · rename_i hrun
    obtain ⟨hs, rfl⟩ := Prod.mk.inj h
    obtain rfl := Except.ok.inj hs
    rw [hrun]
    exact ⟨rfl, rfl⟩
  · rename_i hrun
    split at h
    · obtain ⟨hs, rfl⟩ := Prod.mk.inj h
      obtain rfl := Except.ok.inj hs
      rw [hrun]
      exact ⟨rfl, rfl⟩
    · cases h

/-- A record that the device has is settled, and that changes nothing. -/
theorem settle_effect (hosts : Hosts session name id view) (hid : r.id = id)
    (hn : ((view s.1).values.map (·.uniqueId)).Nodup) {x : Record} (hx : x ∈ (view s.1).values) :
    ∃ settled r' s', r.settle session.recorded x.uniqueId s = (.ok settled, r', s') ∧
      Effect view r s (r', s') .kept [⟨.slotTable id, settled.failure.isNone⟩] := by
  obtain ⟨settled, r', s', hrun⟩ : ∃ settled r' s',
      r.settle session.recorded x.uniqueId s = (.ok settled, r', s') := by
    rcases settle_cases hosts hid hn hx with ⟨_, _, hrun, -⟩ | ⟨_, _, _, hrun, -⟩
    · exact ⟨_, _, _, hrun⟩
    · exact ⟨_, _, _, hrun⟩
  obtain ⟨hafter, hfetch⟩ := refresh_of_settle hrun
  have heffect := refresh_effect hosts hid s
  rw [hafter, hfetch] at heffect
  exact ⟨settled, r', s', hrun, heffect⟩

/-- What the answer to an edit says about the last fetch. -/
theorem accepted_answer (settled : Settled) (e : Entry) :
    accepted (settled.answer e) = settled.failure.isNone := by
  unfold Settled.answer
  split
  · rename_i h
    rw [h]
    rfl
  · rename_i h
    rw [h]
    rfl

/-- Looking for a slot issues nothing but fetches of the table, and a slot is found only if they
are accepted. -/
theorem currentSlot_effect (hosts : Hosts session name id view) (hid : r.id = id) (u : UniqueId)
    (s : σ × List Exchange) :
    ∃ looks, (∀ x ∈ looks, x.command = .slotTable id) ∧
      (accepted (r.currentSlot session.recorded u s).1 = true → looks.all (·.accepted) = true) ∧
      Effect view r s (r.currentSlot session.recorded u s).2 .kept looks := by
  cases hs : r.stale with
  | false =>
    have hrefl : Effect view r s (r, s) .kept [] := ⟨.refl _, rfl, rfl⟩
    refine ⟨[], by simp, fun _ => rfl, ?_⟩
    cases hslot : r.table.slotOf? u with
    | none => simpa [currentSlot, hs, hslot] using hrefl
    | some slot => simpa [currentSlot, hs, hslot] using hrefl
  | true =>
    have heffect := refresh_effect hosts hid s
    rcases hrun : r.refresh session.recorded s with ⟨answer, r', s'⟩
    rw [hrun] at heffect
    refine ⟨[⟨.slotTable id, accepted answer⟩], by simp, ?_⟩
    cases answer with
    | error e =>
      simp only [currentSlot, hs, hrun, if_true]
      exact ⟨fun h => absurd h Bool.false_ne_true, heffect⟩
    | ok =>
      refine ⟨fun _ => rfl, ?_⟩
      cases hslot : r'.table.slotOf? u with
      | none => simpa [currentSlot, hs, hrun, hslot] using heffect
      | some slot => simpa [currentSlot, hs, hrun, hslot] using heffect

/-! ## Mutations -/

/-- The course of an edit that found its slot: it answers if all of its commands were accepted. -/
structure Course {α : Type} (view : σ → Slots Record) (r : Replica) (s : σ × List Exchange)
    (run : Except Error α × Replica × σ × List Exchange) (change : Change)
    (log : List Exchange) : Prop extends Effect view r s run.2 change log where
  answered : accepted run.1 = log.all (·.accepted)

theorem Course.after_look {α : Type} {r' : Replica} {s' : σ × List Exchange} {change : Change}
    {run : Except Error α × Replica × σ × List Exchange} {looks log : List Exchange}
    (look : Effect view r s (r', s') .kept looks) (hlooks : looks.all (·.accepted) = true)
    (h : Course view r' s' run change log) : Course view r s run change (log ++ looks) where
  toEffect := look.after_look h.toEffect
  answered := by rw [h.answered, List.all_append, hlooks, Bool.and_true]

/-- Overwriting the record at a slot where it is. -/
inductive InPlace (id : DatabaseId) (slot : Slot) (x : Record) : Change → List Exchange → Prop where
  | refused : InPlace id slot x .kept [⟨.writeRecord id slot x, false⟩]
  | written (fetched : Bool) : InPlace id slot x (.replaced x)
      [⟨.slotTable id, fetched⟩, ⟨.writeRecord id slot x, true⟩]

/-- Deleting the record at a slot and adding the new one. -/
inductive Replacing (id : DatabaseId) (slot : Slot) (x : Record) :
    Change → List Exchange → Prop where
  | refused : Replacing id slot x .kept [⟨.deleteRecord id slot, false⟩]
  /-- The table could not be fetched behind the deletion. -/
  | cutOff : Replacing id slot x (.removed x.uniqueId)
      [⟨.slotTable id, false⟩, ⟨.deleteRecord id slot, true⟩]
  | notAdded : Replacing id slot x (.removed x.uniqueId)
      [⟨.addRecord id x, false⟩, ⟨.slotTable id, true⟩, ⟨.deleteRecord id slot, true⟩]
  | added (fetched : Bool) : Replacing id slot x (.replaced x)
      [⟨.slotTable id, fetched⟩, ⟨.addRecord id x, true⟩, ⟨.slotTable id, true⟩,
        ⟨.deleteRecord id slot, true⟩]

/-- Adding a record. -/
inductive Adding (id : DatabaseId) (x : Record) : Change → List Exchange → Prop where
  | refused : Adding id x .kept [⟨.addRecord id x, false⟩]
  | added (fetched : Bool) : Adding id x (.added x)
      [⟨.slotTable id, fetched⟩, ⟨.addRecord id x, true⟩]

/-- Deleting the record at a slot. -/
inductive Deleting (id : DatabaseId) (slot : Slot) (u : UniqueId) :
    Change → List Exchange → Prop where
  | refused : Deleting id slot u .kept [⟨.deleteRecord id slot, false⟩]
  | deleted (fetched : Bool) : Deleting id slot u (.removed u)
      [⟨.slotTable id, fetched⟩, ⟨.deleteRecord id slot, true⟩]

/-- A record the device has accepted is settled, and folding it into the entries makes the change
there. -/
theorem folded_course (hosts : Hosts session name id view) {r₁ : Replica} {s₁ : σ × List Exchange}
    (hid : r₁.id = id) (hn : ((view s₁.1).values.map (·.uniqueId)).Nodup) {x : Record}
    (hx : x ∈ (view s₁.1).values) (change : Change) {log : List Exchange}
    (hdevice : (view s₁.1).values.Perm (change.records (view s.1).values))
    (hlog : s₁.2 = log ++ s.2) (haccepted : log.all (·.accepted) = true)
    (fold : Entry → List Entry → List Entry)
    (hfold : ∀ e l, e.record = x → l.map (·.record) = r₁.entries.map (·.record) →
      (fold e l).map (·.record) = change.records (r.entries.map (·.record))) (old : Slot) :
    ∃ settled r' s', r₁.settle session.recorded x.uniqueId s₁ = (.ok settled, r', s') ∧
      Course view r s (settled.answer ⟨settled.slot.getD old, x⟩,
        { r' with entries := fold ⟨settled.slot.getD old, x⟩ r'.entries }, s')
        change (⟨.slotTable id, settled.failure.isNone⟩ :: log) := by
  obtain ⟨settled, r', s', hsettle, heffect⟩ := settle_effect hosts hid hn hx
  refine ⟨settled, r', s', hsettle, ⟨heffect.device.trans hdevice, ?_, ?_⟩, ?_⟩
  · exact hfold _ _ rfl heffect.entries
  · rw [heffect.transcript, hlog]
    rfl
  · rw [accepted_answer, List.all_cons, haccepted, Bool.and_true]

theorem nodup_of_records {l l' : List Entry} (h : l'.map (·.record) = l.map (·.record))
    (hn : (l.map (·.uniqueId)).Nodup) : (l'.map (·.uniqueId)).Nodup := by
  have hids := congrArg (List.map Record.uniqueId) h
  rw [List.map_map, List.map_map] at hids
  exact (congrArg List.Nodup hids).mpr hn

theorem overwriteInPlace_course (hosts : Hosts session name id view)
    (h : InStep name id view r s) {x old : Record} {slot : Slot} (hdb : x.database = name)
    (hslot : (view s.1).get? slot = some old) (hold : old.uniqueId = x.uniqueId) :
    ∃ change log, InPlace id slot x change log ∧
      Course view r s (r.overwriteInPlace session.recorded slot x s) change log := by
  obtain rfl := h.covers.sameId
  rcases hwrite : session.recorded.writeRecord r.id slot x s with ⟨e | _, s₁⟩
  · refine ⟨_, _, .refused, ?_⟩
    simp only [overwriteInPlace, hwrite]
    exact ⟨Effect.kept_of_run hwrite (hosts.recorded.refused hwrite) rfl, rfl⟩
  · obtain ⟨hperm, hmem⟩ := values_written hosts h.covers hdb hslot hold hwrite
    have hn := (h.covers.overwritten (e := ⟨slot, x⟩) hperm).distinct
    have hlog : s₁.2 = [⟨.writeRecord r.id slot x, true⟩] ++ s.2 := (of_recorded hwrite).2
    obtain ⟨settled, r', s', hsettle, hcourse⟩ := folded_course (r := r) hosts rfl hn hmem
      (.replaced x) hperm hlog rfl putBack (by
        rintro e l rfl hl
        rw [map_record_putBack (nodup_of_records hl h.covers.uniqueIds_nodup), hl]
        rfl) slot
    refine ⟨_, _, .written settled.failure.isNone, ?_⟩
    simp only [overwriteInPlace, hwrite, hsettle]
    exact hcourse

/-- To put an entry where the one of its id has been taken out is to put it back. -/
theorem insertIdx_eraseP {l : List Entry} {e : Entry} {i : Nat}
    (hi : l.findIdx? (·.uniqueId == e.uniqueId) = some i) :
    (l.eraseP (·.uniqueId == e.uniqueId)).insertIdx i e = putBack e l := by
  induction l generalizing i with
  | nil => simp at hi
  | cons y l ih =>
    rw [List.findIdx?_cons] at hi
    by_cases he : y.uniqueId = e.uniqueId
    · obtain rfl : 0 = i := by simpa [he] using hi
      rw [putBack, if_pos he, List.eraseP_cons_of_pos (by simpa using he), List.insertIdx_zero]
    · obtain ⟨j, hj, rfl⟩ : ∃ j, l.findIdx? (·.uniqueId == e.uniqueId) = some j ∧ j + 1 = i := by
        simpa [he] using hi
      rw [putBack, if_neg he, List.eraseP_cons_of_neg (by simpa using he),
        List.insertIdx_succ_cons, ih hj]

/-- The records change likewise. -/
theorem map_record_insertIdx {l : List Entry} (hn : (l.map (·.uniqueId)).Nodup) {x : Record}
    {i : Nat} (hi : l.findIdx? (·.uniqueId == x.uniqueId) = some i) :
    ((l.eraseP (·.uniqueId == x.uniqueId)).map (·.record)).insertIdx i x
      = (Change.replaced x).records (l.map (·.record)) := by
  have hput : (l.eraseP (·.uniqueId == x.uniqueId)).insertIdx i ⟨0, x⟩ = putBack ⟨0, x⟩ l :=
    insertIdx_eraseP hi
  have hmap := congrArg (List.map (·.record)) hput
  rw [List.map_insertIdx, map_record_putBack hn] at hmap
  exact hmap

/-- To take a record out and put another of its id in is to replace it. -/
theorem Change.records_replaced_perm {l : List Record} (hn : (l.map (·.uniqueId)).Nodup)
    {x old : Record} (hx : old ∈ l) (hold : old.uniqueId = x.uniqueId) :
    (x :: (Change.removed x.uniqueId).records l).Perm ((Change.replaced x).records l) := by
  induction l with
  | nil => cases hx
  | cons y l ih =>
    obtain ⟨hy, hl⟩ := List.nodup_cons.mp hn
    by_cases he : y.uniqueId = x.uniqueId
    · -- it is `y` that goes, and nothing behind it has the id
      have hrest : ∀ z ∈ l, z.uniqueId ≠ x.uniqueId :=
        fun z hz h => hy (List.mem_map.mpr ⟨z, hz, h.trans he.symm⟩)
      have hkept : (l.map fun z => if z.uniqueId = x.uniqueId then x else z) = l := by
        rw [List.map_congr_left fun z hz => if_neg (hrest z hz), List.map_id']
      simp only [records]
      rw [List.filter_cons_of_neg (by simpa using he),
        List.filter_eq_self.mpr (by simpa using hrest), List.map_cons, if_pos he, hkept]
    · have hmem : old ∈ l := (List.mem_cons.mp hx).resolve_left fun h => he (h ▸ hold)
      have hperm := ih hl hmem
      simp only [records] at hperm ⊢
      rw [List.filter_cons_of_pos (by simpa using he), List.map_cons, if_neg he]
      exact (List.Perm.swap y x _).trans (hperm.cons y)

theorem overwriteByReplacing_course (hosts : Hosts session name id view)
    (h : InStep name id view r s) {x old : Record} {slot : Slot} (hdb : x.database = name)
    (hslot : (view s.1).get? slot = some old) (hold : old.uniqueId = x.uniqueId) :
    ∃ change log, Replacing id slot x change log ∧
      Course view r s (r.overwriteByReplacing session.recorded slot x s) change log := by
  obtain rfl := h.covers.sameId
  have hmem := Slots.mem_values_of_get? hslot
  have hlisted : x.uniqueId ∈ r.entries.map (·.uniqueId) := by
    obtain ⟨e, he, hrec⟩ := List.mem_map.mp (h.covers.complete.symm.subset hmem)
    exact List.mem_map.mpr ⟨e, he, by rw [Entry.uniqueId, hrec, hold]⟩
  obtain ⟨i, hi, -, herased⟩ := entries_erased h.covers.uniqueIds_nodup hlisted
  change _ = (Change.removed x.uniqueId).records _ at herased
  simp only [overwriteByReplacing, hi]
  generalize hr₁ : ({ r with entries := r.entries.eraseP (·.uniqueId == x.uniqueId) } : Replica)
    = r₁
  have hid : r₁.id = r.id := by rw [← hr₁]
  rcases hdelete : session.recorded.deleteRecord r.id slot s with ⟨e | _, s₁⟩
  · exact ⟨_, _, .refused, Effect.kept_of_run hdelete (hosts.recorded.refused hdelete) rfl, rfl⟩
  have hdeleted : Effect view r s (r₁, s₁) (.removed x.uniqueId)
      [⟨.deleteRecord r.id slot, true⟩] :=
    ⟨values_deleted hosts h.covers hslot hold hdelete, by rw [← hr₁]; exact herased,
      (of_recorded hdelete).2⟩
  have hlook := refresh_effect hosts hid s₁
  rcases refresh_cases hosts hid s₁ with ⟨e, s₂, hrun, -⟩ | ⟨table, s₂, hrun, -⟩
  · -- the edit ends with the record deleted
    rw [hrun] at hlook
    simp only [hrun]
    exact ⟨_, _, .cutOff, hdeleted.then_look hlook, rfl⟩
  rw [hrun] at hlook
  have hfetched := hdeleted.then_look hlook
  have hid₂ : (r₁.moved table).id = r.id := hid
  simp only [hrun]
  generalize r₁.moved table = r₂ at hfetched hid₂
  rcases hadd : session.recorded.addRecord r₂.id x s₂ with ⟨e | _, s₃⟩
  · have hrefused := Effect.kept_of_run (r := r₂) hadd (hosts.recorded.refused hadd) rfl
    rw [hid₂] at hrefused
    exact ⟨_, _, .notAdded, hfetched.then_look hrefused, rfl⟩
  · rw [hid₂] at hadd
    obtain ⟨hnew, hperm⟩ := hosts.recorded.addRecord hdb hadd
    have hn₂ : ((view s₂.1).values.map (·.uniqueId)).Nodup := (hfetched.device.map _).nodup_iff.mpr
      ((List.filter_sublist.map Record.uniqueId).nodup h.covers.distinct)
    have hdevice := (hperm.trans (hfetched.device.cons x)).trans
      (Change.records_replaced_perm h.covers.distinct hmem hold)
    have hlog : s₃.2 = [⟨.addRecord r.id x, true⟩, ⟨.slotTable r.id, true⟩,
        ⟨.deleteRecord r.id slot, true⟩] ++ s.2 := by
      rw [(of_recorded hadd).2, hfetched.transcript]
      rfl
    obtain ⟨settled, r', s', hsettle, hcourse⟩ := folded_course (r := r) hosts hid₂
      ((hperm.map _).nodup_iff.mpr (List.nodup_cons.mpr ⟨hnew, hn₂⟩))
      (hperm.symm.subset List.mem_cons_self) (.replaced x) hdevice hlog rfl
      (fun e l => l.insertIdx i e) (by
        rintro e l rfl hl
        rw [List.map_insertIdx, hl, hfetched.entries, ← herased,
          map_record_insertIdx h.covers.uniqueIds_nodup hi]) slot
    simp only [hsettle]
    exact ⟨_, _, .added settled.failure.isNone, hcourse⟩

/-! ## Edits -/

theorem add_course (hosts : Hosts session name id view) (h : InStep name id view r s)
    (content : Record) :
    ∃ change log, Adding id (r.ownRecord r.table.allocate.1 content) change log ∧
      Course view r s (r.add session.recorded content s) change log := by
  obtain rfl := h.covers.sameId
  simp only [add]
  generalize hr₁ : ({ r with table := r.table.allocate.2 } : Replica) = r₁
  have hentries : r₁.entries = r.entries := by rw [← hr₁]
  have hid : r₁.id = r.id := by rw [← hr₁]
  generalize hx : r.ownRecord r.table.allocate.1 content = x
  have hown : r₁.ownRecord r.table.allocate.1 content = x := by rw [← hx, ← hr₁]; rfl
  have hu : r.table.allocate.1 = x.uniqueId := by rw [← hx]; rfl
  have hdb : x.database = name := by rw [← hx, ← h.covers.sameName]; rfl
  rw [hown, hu]
  rcases hadd : session.recorded.addRecord r.id x s with ⟨e | _, s₁⟩
  · exact ⟨_, _, .refused, Effect.kept_of_run hadd (hosts.recorded.refused hadd)
      (congrArg _ hentries), rfl⟩
  · obtain ⟨hnew, hperm⟩ := hosts.recorded.addRecord hdb hadd
    have hn := (hperm.map _).nodup_iff.mpr (List.nodup_cons.mpr ⟨hnew, h.covers.distinct⟩)
    have hlog : s₁.2 = [⟨.addRecord r.id x, true⟩] ++ s.2 := (of_recorded hadd).2
    obtain ⟨settled, r', s', hsettle, hcourse⟩ := folded_course (r := r) hosts hid hn
      (hperm.symm.subset List.mem_cons_self) (.added x) hperm hlog rfl List.cons (by
        rintro e l rfl hl
        rw [List.map_cons, hl, hentries]
        rfl) 0
    simp only [hsettle]
    exact ⟨_, _, .added settled.failure.isNone, hcourse⟩

/-- An edit of an entry whose slot is not found ends at the look. -/
structure Unfound {α : Type} (view : σ → Slots Record) (r : Replica) (s : σ × List Exchange)
    (run : Except Error α × Replica × σ × List Exchange) (looks : List Exchange) : Prop extends
    Effect view r s run.2 .kept looks where
  answered : accepted run.1 = false

/-- The replica as one of a database of this kind. -/
def ofKind (k : Kind) (r : Replica) : Replica := { r with kind := k }

theorem refresh_ofKind (k : Kind) (r : Replica) (s : σ) :
    (r.ofKind k).refresh session s
      = ((r.refresh session s).1, (r.refresh session s).2.1.ofKind k, (r.refresh session s).2.2) := by
  simp only [refresh, ofKind]
  rcases session.slotTable r.id s with ⟨e | fresh, s₁⟩ <;> rfl

/-- The kind does not matter for looking. -/
theorem currentSlot_ofKind (session : Session σ) (k : Kind) (r : Replica) (u : UniqueId) (s : σ) :
    (r.ofKind k).currentSlot session u s = ((r.currentSlot session u s).1,
      (r.currentSlot session u s).2.1.ofKind k, (r.currentSlot session u s).2.2) := by
  have hstale : (r.ofKind k).stale = r.stale := rfl
  have htable (r : Replica) : (r.ofKind k).table = r.table := rfl
  simp only [currentSlot, refresh_ofKind, hstale, htable]
  cases r.stale with
  | false => cases r.table.slotOf? u <;> rfl
  | true =>
    rcases r.refresh session s with ⟨e | _, r₁, s₁⟩
    · rfl
    · simp only [htable, if_true]
      cases r₁.table.slotOf? u <;> rfl

theorem kind_currentSlot (session : Session σ) (r : Replica) (u : UniqueId) (s : σ) :
    (r.currentSlot session u s).2.1.kind = r.kind :=
  congrArg (·.2.1.kind) (currentSlot_ofKind session r.kind r u s)

theorem overwrite_course (hosts : Hosts session name id view) (h : InStep name id view r s)
    (entry : Entry) (content : Record) :
    ∃ looks, (∀ x ∈ looks, x.command = .slotTable id) ∧
      (Unfound view r s (r.overwrite session.recorded entry content s) looks ∨
        ∃ slot change log, Course view r s (r.overwrite session.recorded entry content s) change
            (log ++ looks) ∧
          if r.kind.overwritesInPlace
            then InPlace id slot (r.ownRecord entry.uniqueId content) change log
            else Replacing id slot (r.ownRecord entry.uniqueId content) change log) := by
  obtain ⟨looks, hfetches, haccepted, heffect⟩ :=
    currentSlot_effect hosts h.covers.sameId entry.uniqueId s
  obtain ⟨answer, r₁, s₁, hcurrent, h₁, hfound⟩ := currentSlot_spec hosts h entry.uniqueId
  have hkind := kind_currentSlot session.recorded r entry.uniqueId s
  rw [hcurrent] at haccepted heffect hkind
  refine ⟨looks, hfetches, ?_⟩
  simp only [overwrite, hcurrent]
  rcases answer with e | slot
  · exact Or.inl ⟨heffect, rfl⟩
  obtain ⟨-, old, hslot, hold⟩ := hfound slot rfl
  refine Or.inr ⟨slot, ?_⟩
  rw [← hkind]
  simp only
  split
  · obtain ⟨change, log, hcourse, hran⟩ :=
      overwriteInPlace_course (x := r.ownRecord entry.uniqueId content) hosts h₁
        h.covers.sameName hslot hold
    exact ⟨change, log, hran.after_look heffect (haccepted rfl), hcourse⟩
  · obtain ⟨change, log, hcourse, hran⟩ :=
      overwriteByReplacing_course (x := r.ownRecord entry.uniqueId content) hosts h₁
        h.covers.sameName hslot hold
    exact ⟨change, log, hran.after_look heffect (haccepted rfl), hcourse⟩

theorem delete_course (hosts : Hosts session name id view) (h : InStep name id view r s)
    (entry : Entry) :
    ∃ looks, (∀ x ∈ looks, x.command = .slotTable id) ∧
      (Unfound view r s (r.delete session.recorded entry s) looks ∨
        ∃ slot change log, Course view r s (r.delete session.recorded entry s) change
          (log ++ looks) ∧ Deleting id slot entry.uniqueId change log) := by
  obtain ⟨looks, hfetches, haccepted, heffect⟩ :=
    currentSlot_effect hosts h.covers.sameId entry.uniqueId s
  obtain ⟨answer, r₁, s₁, hcurrent, h₁, hfound⟩ := currentSlot_spec hosts h entry.uniqueId
  rw [hcurrent] at haccepted heffect
  refine ⟨looks, hfetches, ?_⟩
  simp only [delete, hcurrent]
  rcases answer with e | slot
  · exact Or.inl ⟨heffect, rfl⟩
  obtain ⟨-, old, hslot, hold⟩ := hfound slot rfl
  obtain rfl := h₁.covers.sameId
  simp only
  suffices hcourse : ∃ change log, Deleting r₁.id slot entry.uniqueId change log ∧
      Course view r₁ s₁ _ change log by
    obtain ⟨change, log, hdeleting, hcourse⟩ := hcourse
    exact Or.inr ⟨slot, change, log, hcourse.after_look heffect (haccepted rfl), hdeleting⟩
  rcases hdelete : session.recorded.deleteRecord r₁.id slot s₁ with ⟨e | _, s₂⟩
  · exact ⟨_, _, .refused, Effect.kept_of_run hdelete (hosts.recorded.refused hdelete) rfl, rfl⟩
  simp only
  generalize hr₂ : ({ r₁ with entries := r₁.entries.filter (·.uniqueId != entry.uniqueId) } :
    Replica) = r₂
  have hid : r₂.id = r₁.id := by rw [← hr₂]
  have hdeleted : Effect view r₁ s₁ (r₂, s₂) (.removed entry.uniqueId)
      [⟨.deleteRecord r₁.id slot, true⟩] :=
    ⟨values_deleted hosts h₁.covers hslot hold hdelete, by rw [← hr₂]; exact map_record_filter _ _,
      (of_recorded hdelete).2⟩
  refine ⟨_, _, .deleted _, hdeleted.then_look (refresh_effect hosts hid s₂), ?_⟩
  simp

/-! ## Runs that answer -/

/-- Whether a run answers, with an answer and a state that pass a test. -/
def answersWith {ε α τ : Type} (run : Except ε α × τ) (test : α → τ → Bool) : Bool :=
  match run with
  | (.ok a, s) => test a s
  | (.error _, _) => false

theorem exists_of_answersWith {ε α τ : Type} (run : Except ε α × τ) (test : α → τ → Bool)
    (h : answersWith run test = true) : ∃ a s, run = (.ok a, s) ∧ test a s = true := by
  obtain ⟨answer, s⟩ := run
  cases answer with
  | error e => cases h
  | ok a => exact ⟨a, s, rfl, h⟩

end Palmtop.Replica
