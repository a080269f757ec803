import Palmtop.Proofs.Replica.Courses

/-! # Overwriting by deletion and addition

The records of the task list can only be replaced by deletion and addition.  To the caller this is
as good as overwriting where the record is: the same records are on the device afterwards and in the
replica, in the same order, whether the table can be fetched or not (`overwrite_alike`).

There is one exception.  Between the deletion and the addition the table is fetched, and when that
fails the edit ends there, and neither the old record nor the new one is on the device
(`overwrite_cut_off`).
-/
namespace Palmtop.Replica
open Device

variable {σ : Type} {session : Session σ} {name : String} {id : DatabaseId}
  {view : σ → Slots Record} {r : Replica} {s : σ × List Exchange}

/-- The last thing done is to fetch the table behind a deletion, in vain. -/
def CutOff (id : DatabaseId) (transcript : List Exchange) : Prop :=
  ∃ slot earlier, transcript = ⟨.slotTable id, false⟩ :: ⟨.deleteRecord id slot, true⟩ :: earlier

/-- The records of a database by their ids. -/
def recordOf (records : Slots Record) (u : UniqueId) : Option Record :=
  records.values.find? (·.uniqueId == u)

theorem recordOf_of_perm {records : Slots Record} {l : List Record}
    (hn : (l.map (·.uniqueId)).Nodup) (h : records.values.Perm l) (u : UniqueId) :
    recordOf records u = l.find? (·.uniqueId == u) := by
  refine Option.ext fun x => ?_
  rw [recordOf, find?_uniqueId_eq_some ((h.map _).nodup_iff.mpr hn), find?_uniqueId_eq_some hn,
    h.mem_iff]

/-- A replica in step is in step as one of any kind, and behind an empty transcript. -/
theorem InStep.ofKind (h : InStep name id view r s) (k : Kind) : InStep name id view (r.ofKind k) s :=
  ⟨⟨h.covers.1, h.covers.2, h.covers.3, h.covers.4⟩, h.table, h.slots, h.fetched⟩

theorem InStep.untold (h : InStep name id view r s) : InStep name id view r (s.1, []) :=
  ⟨h.covers, h.table, h.slots, nofun⟩

/-- One edit that gives a record new content has led to the same as another. -/
structure AsGood (view : σ → Slots Record) (x : Record)
    (after other : Replica × σ × List Exchange) : Prop where
  device : recordOf (view after.2.1) = recordOf (view other.2.1)
  entries : after.1.entries.map (·.record) = other.1.entries.map (·.record)
  present : (∃ e ∈ after.2.2, e.command.isMutation) → recordOf (view after.2.1) x.uniqueId = some x

/-- One edit that gives a record new content has lost it, and is else as good as another. -/
structure Lost (view : σ → Slots Record) (u : UniqueId)
    (after other : Replica × σ × List Exchange) : Prop where
  device : recordOf (view after.2.1) = Function.update (recordOf (view other.2.1)) u none
  entries : after.1.entries.map (·.record)
    = (other.1.entries.map (·.record)).filter (·.uniqueId ≠ u)

theorem Effect.recordOf_removed {u : UniqueId} {after : Replica × σ × List Exchange}
    {log : List Exchange} (hn : ((view s.1).values.map (·.uniqueId)).Nodup)
    (h : Effect view r s after (.removed u) log) :
    recordOf (view after.2.1) = Function.update (recordOf (view s.1)) u none := by
  have hn' : (((Change.removed u).records (view s.1).values).map (·.uniqueId)).Nodup :=
    (List.filter_sublist.map Record.uniqueId).nodup hn
  funext v
  rw [recordOf_of_perm hn' h.device, Change.find?_removed, Function.update_apply]
  rfl

theorem Effect.recordOf_replaced {x old : Record} {after : Replica × σ × List Exchange}
    {log : List Exchange} (hn : ((view s.1).values.map (·.uniqueId)).Nodup)
    (hold : recordOf (view s.1) x.uniqueId = some old)
    (h : Effect view r s after (.replaced x) log) :
    recordOf (view after.2.1) = Function.update (recordOf (view s.1)) x.uniqueId (some x) := by
  have hids := Slots.map_key_overwriting Record.uniqueId x (view s.1).values
  funext v
  rw [recordOf_of_perm (hids ▸ hn) h.device, Change.find?_replaced, Function.update_apply]
  change (recordOf (view s.1) v).map _ = _
  split
  · rename_i hv
    rw [hv, hold]
    rfl
  · exact Option.map_id'

/-- To take a record out it does not matter what it has been replaced by. -/
theorem Change.removed_replaced (x : Record) (l : List Record) :
    (Change.removed x.uniqueId).records ((Change.replaced x).records l)
      = (Change.removed x.uniqueId).records l := by
  induction l with
  | nil => rfl
  | cons y l ih =>
    simp only [records, List.map_cons] at ih ⊢
    by_cases hy : y.uniqueId = x.uniqueId
    · rw [if_pos hy, List.filter_cons_of_neg (by simp), List.filter_cons_of_neg (by simp [hy]), ih]
    · rw [if_neg hy, List.filter_cons_of_pos (by simp [hy]), List.filter_cons_of_pos (by simp [hy]),
        ih]

/-- Both edits have found the slot of the record. -/
theorem overwriteByReplacing_alike (hosts : Hosts session name id view)
    (h : InStep name id view r s) {x old : Record} {slot : Slot} (hdb : x.database = name)
    (hslot : (view s.1).get? slot = some old) (hold : old.uniqueId = x.uniqueId)
    {replaced inPlace : Replica × σ × List Exchange}
    (hreplaced : replaced = ((r.ofKind .tasks).overwriteByReplacing session.recorded slot x s).2)
    (hinPlace : inPlace = ((r.ofKind .standard).overwriteInPlace session.recorded slot x s).2)
    (haccepted : ∀ e ∈ replaced.2.2 ++ inPlace.2.2, e.command.isMutation → e.accepted) :
    (¬ CutOff id replaced.2.2 ∧ AsGood view x replaced inPlace) ∨
      (CutOff id replaced.2.2 ∧ Lost view x.uniqueId replaced inPlace) := by
  obtain ⟨change, log, hreplacing, heffect, -⟩ :=
    overwriteByReplacing_course hosts (h.ofKind .tasks) hdb hslot hold
  obtain ⟨change', log', hwriting, heffect', -⟩ :=
    overwriteInPlace_course hosts (h.ofKind .standard) hdb hslot hold
  rw [← hreplaced] at heffect
  rw [← hinPlace] at heffect'
  have hfound : recordOf (view s.1) x.uniqueId = some old := by
    rw [recordOf, find?_uniqueId_eq_some h.covers.distinct]
    exact ⟨Slots.mem_values_of_get? hslot, hold⟩
  rw [heffect.transcript, heffect'.transcript] at haccepted
  cases hwriting with
  | refused =>
    have := haccepted ⟨.writeRecord id slot x, false⟩ (by simp) rfl
    cases this
  | written fetched =>
    have hdevice' := heffect'.recordOf_replaced h.covers.distinct hfound
    cases hreplacing with
    | refused =>
      have := haccepted ⟨.deleteRecord id slot, false⟩ (by simp) rfl
      cases this
    | notAdded =>
      have := haccepted ⟨.addRecord id x, false⟩ (by simp) rfl
      cases this
    | cutOff =>
      refine Or.inr ⟨⟨slot, s.2, heffect.transcript⟩, ?_, ?_⟩
      · rw [heffect.recordOf_removed h.covers.distinct, hdevice', Function.update_idem]
      · rw [heffect.entries, heffect'.entries]
        exact (Change.removed_replaced x _).symm
    | added fetched =>
      have hdevice := heffect.recordOf_replaced h.covers.distinct hfound
      refine Or.inl ⟨?_, hdevice.trans hdevice'.symm, heffect.entries.trans heffect'.entries.symm,
        fun _ => by rw [hdevice, Function.update_self]⟩
      rintro ⟨slot', earlier, hcut⟩
      rw [heffect.transcript] at hcut
      simp at hcut

/-- **Replacing a record is as good as overwriting it.**  After any edits, each of which may fail at
any of its commands, an entry is overwritten with the same content in the same database, once as one
that takes overwriting only by deletion and addition and once as any other.  If the mutations of
both edits are accepted, and whether the slot tables are or not, the same records are on the device
and in the replica behind both, and behind a mutation the new record is there; unless the replacing
edit is cut off, which leaves it with neither the old record nor the new one. -/
theorem overwrite_alike (hosts : Hosts session name id view) {s : σ}
    (distinct : ((view s).values.map (·.uniqueId)).Nodup) {s₁ : σ × List Exchange}
    (loaded : load session.recorded name (s, []) = (.ok r, s₁)) (edits : List Edit)
    (entry : Entry) (content : Record) :
    let (r, s) := editAll session.recorded edits r s₁
    let replaced := ((r.ofKind .tasks).overwrite session.recorded entry content (s.1, [])).2
    let inPlace := ((r.ofKind .standard).overwrite session.recorded entry content (s.1, [])).2
    (∀ x ∈ replaced.2.2 ++ inPlace.2.2, x.command.isMutation → x.accepted) →
    (¬ CutOff id replaced.2.2 ∧
      AsGood view (r.ownRecord entry.uniqueId content) replaced inPlace) ∨
    (CutOff id replaced.2.2 ∧ Lost view entry.uniqueId replaced inPlace) := by
  obtain ⟨r, ⟨s, transcript⟩, hrun, h⟩ :=
    editAll_inStep hosts edits (load_inStep hosts distinct loaded)
  rw [hrun]
  have h := h.untold
  obtain ⟨looks, hlooks, -, hlook⟩ :=
    currentSlot_effect hosts h.covers.sameId entry.uniqueId (s, [])
  obtain ⟨answer, r₁, s₁, hcurrent, h₁, hfound⟩ := currentSlot_spec hosts h entry.uniqueId
  rw [hcurrent] at hlook
  have hlooked : ∀ e ∈ s₁.2, e.command = .slotTable id := by
    rw [hlook.transcript, List.append_nil]
    exact hlooks
  simp only [overwrite, currentSlot_ofKind, hcurrent]
  intro haccepted
  rcases answer with e | slot
  · -- neither edit gets to its first mutation
    refine Or.inl ⟨?_, rfl, rfl, ?_⟩
    · rintro ⟨slot, earlier, hcut⟩
      have hfetch := hlooked ⟨.deleteRecord id slot, true⟩ (by rw [hcut]; simp)
      cases hfetch
    · rintro ⟨x, hx, hmutation⟩
      rw [hlooked x hx] at hmutation
      cases hmutation
  · obtain ⟨-, old, hslot, hold⟩ := hfound slot rfl
    exact overwriteByReplacing_alike (x := r.ownRecord entry.uniqueId content) hosts h₁
      h.covers.sameName hslot hold rfl rfl haccepted

/-- The table cannot be fetched behind the addition of the new record. -/
theorem overwrite_alike_stale :
    let task (n : UInt8) : Record := ⟨"Tasks", 1, 0, ⟨#[n]⟩⟩
    let d : Device := { databases := [{ name := "Tasks", records := Slots.numbered 0 [task 1] }] }
    let session := (guarded "Tasks" 1).refusing
    -- three commands of the loading, the deletion, the fetch behind it, the addition
    let plan := [false, false, false, false, false, false, true]
    ∃ r s₁, load session.recorded "Tasks" ((d, plan), []) = (.ok r, s₁) ∧
      let replaced :=
        ((r.ofKind .tasks).overwrite session.recorded ⟨0, task 1⟩ (task 2) (s₁.1, [])).2
      let inPlace :=
        ((r.ofKind .standard).overwrite session.recorded ⟨0, task 1⟩ (task 2) (s₁.1, [])).2
      (¬ CutOff 1 replaced.2.2 ∧
        AsGood (fun s => recordsAt 1 s.1) (r.ownRecord 1 (task 2)) replaced inPlace) ∨
      (CutOff 1 replaced.2.2 ∧ Lost (fun s => recordsAt 1 s.1) 1 replaced inPlace) := by
  intro task d session plan
  obtain ⟨r, s₁, hload, haccepted⟩ := exists_of_answersWith
    (load session.recorded "Tasks" ((d, plan), [])) (fun r s₁ =>
      (((r.ofKind .tasks).overwrite session.recorded ⟨0, task 1⟩ (task 2) (s₁.1, [])).2.2.2 ++
        ((r.ofKind .standard).overwrite session.recorded ⟨0, task 1⟩ (task 2) (s₁.1, [])).2.2.2).all
          fun x => !x.command.isMutation || x.accepted) (by decide +kernel)
  refine ⟨r, s₁, hload, overwrite_alike (hosts_guarded "Tasks" 1).refusing (s := (d, plan))
    (by decide) hload [] ⟨0, task 1⟩ (task 2) fun x hx hmutation => ?_⟩
  have hx := List.all_eq_true.mp haccepted x hx
  rwa [hmutation] at hx

/-- **A replacing edit can lose its record**, though every mutation is accepted: the table cannot be
fetched behind the deletion.  Overwriting in place, the same refusal leaves the new record. -/
theorem overwrite_cut_off :
    let task (n : UInt8) : Record := ⟨"Tasks", 1, 0, ⟨#[n]⟩⟩
    let d : Device := { databases := [{ name := "Tasks", records := Slots.numbered 0 [task 1] }] }
    let session := (guarded "Tasks" 1).refusing
    let plan := [false, false, false, false, true]
    ∃ r s₁, load session.recorded "Tasks" ((d, plan), []) = (.ok r, s₁) ∧
      let replaced :=
        ((r.ofKind .tasks).overwrite session.recorded ⟨0, task 1⟩ (task 2) (s₁.1, [])).2
      let inPlace :=
        ((r.ofKind .standard).overwrite session.recorded ⟨0, task 1⟩ (task 2) (s₁.1, [])).2
      (∀ x ∈ replaced.2.2 ++ inPlace.2.2, x.command.isMutation → x.accepted) ∧
      recordOf (recordsAt 1 inPlace.2.1.1) 1 = some (task 2) ∧
      recordOf (recordsAt 1 replaced.2.1.1) 1 = none := by
  intro task d session plan
  obtain ⟨r, s₁, hload, hlost⟩ := exists_of_answersWith
    (load session.recorded "Tasks" ((d, plan), [])) (fun r s₁ =>
      let replaced :=
        ((r.ofKind .tasks).overwrite session.recorded ⟨0, task 1⟩ (task 2) (s₁.1, [])).2
      let inPlace :=
        ((r.ofKind .standard).overwrite session.recorded ⟨0, task 1⟩ (task 2) (s₁.1, [])).2
      decide ((∀ x ∈ replaced.2.2 ++ inPlace.2.2, x.command.isMutation → x.accepted) ∧
        recordOf (recordsAt 1 inPlace.2.1.1) 1 = some (task 2) ∧
        recordOf (recordsAt 1 replaced.2.1.1) 1 = none)) (by decide +kernel)
  exact ⟨r, s₁, hload, of_decide_eq_true hlost⟩

end Palmtop.Replica
