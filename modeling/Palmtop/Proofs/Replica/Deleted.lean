import Mathlib.Algebra.Group.Nat.Defs
import Palmtop.Proofs.Device.Allocating
import Palmtop.Proofs.Replica.Courses

/-! # Entries of deleted records

An entry names its record by the unique id alone, so what an entry does after its record has been
deleted depends on the ids given out since.  The records of a database are at any time among those
it was loaded with and those added (`editAll_ids`).  The ids given out to additions follow one
another in cyclic order, whatever else is edited in between and whatever fails (`given_ahead`), and
no two are the same until the allocator has gone all the way round (`given_nodup`).

So the entry of a deleted record finds no record as long as its id has not been given out again
(`deleted_stays_deleted`), which for a record that was itself added means for good.  The id of a
record that was loaded can be given out again once (`deleted_reused`).
-/
namespace Palmtop

/-- The most ids that are passed over for a new one, and that one. -/
def SlotTable.reach : Nat := UInt32.size + 2

theorem SlotTable.looks_allocate_le_reach (t : SlotTable) :
    looks t.lastNewId t.allocate.1 ≤ reach :=
  t.looks_allocate_le.trans (Nat.add_le_add_right t.ids.size_le 2)

theorem SlotTable.allocate_ahead (t : SlotTable) :
    ∃ k, 0 < k ∧ k ≤ reach ∧ t.allocate.1 = t.lastNewId + UInt64.ofNat k :=
  ⟨_, Nat.succ_pos _, t.looks_allocate_le_reach, (add_looks _ _).symm⟩

namespace Replica
open Device

variable {σ : Type} {session : Session σ} {name : String} {id : DatabaseId}
  {view : σ → Slots Record} {r : Replica} {s s' : σ × List Exchange}

/-! ## The ids given out -/

/-- The id an edit takes for a new record. -/
def Edit.takes (r : Replica) : Edit → Option UniqueId
  | .add _ => some r.table.allocate.1
  | _ => none

/-- The ids given out to the additions among these edits, in order. -/
def given (session : Session σ) : List Edit → Replica → σ → List UniqueId
  | [], _, _ => []
  | e :: edits, r, s =>
    let (_, r', s') := r.edit session e s
    (e.takes r).toList ++ given session edits r' s'

section allocator
variable {r' : Replica} {s s' : σ}

theorem lastNewId_refresh {answer : Except Error Unit}
    (h : r.refresh session s = (answer, r', s')) : r'.table.lastNewId = r.table.lastNewId := by
  unfold refresh at h
  split at h <;> · cases h; rfl

theorem lastNewId_settle {u : UniqueId} {answer : Except Error Settled}
    (h : r.settle session u s = (answer, r', s')) : r'.table.lastNewId = r.table.lastNewId := by
  unfold settle at h
  split at h
  · rename_i hrun
    cases h
    exact lastNewId_refresh hrun
  · rename_i hrun
    split at h <;>
    · cases h
      exact lastNewId_refresh hrun

theorem lastNewId_currentSlot {u : UniqueId} {answer : Except Error Slot}
    (h : r.currentSlot session u s = (answer, r', s')) :
    r'.table.lastNewId = r.table.lastNewId := by
  simp only [currentSlot] at h
  split at h
  · split at h
    · rename_i hrun
      cases h
      exact lastNewId_refresh hrun
    · rename_i hrun
      split at h <;>
      · cases h
        exact lastNewId_refresh hrun
  · split at h <;> · cases h; rfl

theorem lastNewId_overwriteInPlace {slot : Slot} {x : Record} {answer : Except Error Entry}
    (h : r.overwriteInPlace session slot x s = (answer, r', s')) :
    r'.table.lastNewId = r.table.lastNewId := by
  unfold overwriteInPlace at h
  split at h
  · cases h
    rfl
  · split at h <;>
    · rename_i hrun
      have hsettle := lastNewId_settle hrun
      cases h
      exact hsettle

theorem lastNewId_overwriteByReplacing {slot : Slot} {x : Record} {answer : Except Error Entry}
    (h : r.overwriteByReplacing session slot x s = (answer, r', s')) :
    r'.table.lastNewId = r.table.lastNewId := by
  simp only [overwriteByReplacing] at h
  split at h
  · cases h
    rfl
  split at h
  · rename_i hrun
    have hrefresh := lastNewId_refresh hrun
    cases h
    exact hrefresh
  rename_i hrun
  have hrefresh := lastNewId_refresh hrun
  split at h
  · cases h
    exact hrefresh
  split at h <;>
  · rename_i hsettle
    cases h
    exact (lastNewId_settle hsettle).trans hrefresh

/-- Only an addition moves the allocator, and that to the id it takes. -/
theorem lastNewId_edit (session : Session σ) (e : Edit) (r : Replica) (s : σ) :
    (r.edit session e s).2.1.table.lastNewId = (e.takes r).getD r.table.lastNewId := by
  cases e with
  | add content =>
    rcases hrun : r.add session content s with ⟨answer, r', s'⟩
    simp only [edit, hrun, Edit.takes, Option.getD_some]
    unfold add at hrun
    simp only at hrun
    split at hrun
    · cases hrun
      rfl
    · split at hrun <;>
      · rename_i hsettle
        cases hrun
        exact lastNewId_settle hsettle
  | overwrite entry content =>
    rcases hrun : r.overwrite session entry content s with ⟨answer, r', s'⟩
    simp only [edit, hrun, Edit.takes, Option.getD_none]
    simp only [overwrite] at hrun
    split at hrun
    · rename_i hlook
      cases hrun
      exact lastNewId_currentSlot hlook
    · rename_i hlook
      split at hrun
      · exact (lastNewId_overwriteInPlace hrun).trans (lastNewId_currentSlot hlook)
      · exact (lastNewId_overwriteByReplacing hrun).trans (lastNewId_currentSlot hlook)
  | delete entry =>
    rcases hrun : r.delete session entry s with ⟨answer, r', s'⟩
    simp only [edit, hrun, Edit.takes, Option.getD_none]
    simp only [delete] at hrun
    split at hrun
    · rename_i hlook
      cases hrun
      exact lastNewId_currentSlot hlook
    · rename_i hlook
      have hlook := lastNewId_currentSlot hlook
      split at hrun
      · cases hrun
        exact hlook
      · have hrefresh := lastNewId_refresh hrun
        exact hrefresh.trans hlook

/-- The ids given out are more and more steps ahead of where the allocator was. -/
theorem given_ahead (session : Session σ) (edits : List Edit) (r : Replica) (s : σ) :
    ∃ steps : List Nat, steps.Pairwise (· < ·) ∧
      (∀ k ∈ steps, 0 < k ∧ k ≤ edits.length * SlotTable.reach) ∧
      given session edits r s = steps.map fun k => r.table.lastNewId + UInt64.ofNat k := by
  induction edits generalizing r s with
  | nil => exact ⟨[], .nil, by simp, rfl⟩
  | cons e edits ih =>
    obtain ⟨steps, hsorted, hbound, hgiven⟩ :=
      ih (r.edit session e s).2.1 (r.edit session e s).2.2
    rw [lastNewId_edit] at hgiven
    have hlength : (e :: edits).length * SlotTable.reach
        = edits.length * SlotTable.reach + SlotTable.reach := by
      rw [List.length_cons, Nat.succ_mul]
    cases htakes : e.takes r with
    | none =>
      refine ⟨steps, hsorted, fun k hk => ?_, ?_⟩
      · have := hbound k hk
        omega
      · simp only [given, htakes, Option.toList_none, List.nil_append, hgiven, Option.getD_none]
    | some u =>
      -- the steps behind the addition are counted from the id it takes
      obtain ⟨k₀, hpos, hle, hu⟩ : ∃ k, 0 < k ∧ k ≤ SlotTable.reach ∧
          u = r.table.lastNewId + UInt64.ofNat k := by
        cases e with
        | add content =>
          obtain rfl := Option.some.inj htakes
          exact r.table.allocate_ahead
        | overwrite => cases htakes
        | delete => cases htakes
      refine ⟨k₀ :: steps.map (k₀ + ·), ?_, ?_, ?_⟩
      · refine List.pairwise_cons.mpr ⟨fun k hk => ?_, ?_⟩
        · obtain ⟨j, hj, rfl⟩ := List.mem_map.mp hk
          have := hbound j hj
          omega
        · exact hsorted.map _ fun i j hij => by omega
      · intro k hk
        rcases List.mem_cons.mp hk with rfl | hk
        · omega
        · obtain ⟨j, hj, rfl⟩ := List.mem_map.mp hk
          have := hbound j hj
          omega
      · simp only [given, htakes, Option.toList_some, hgiven, Option.getD_some, hu, List.map_cons,
          List.map_map, List.singleton_append]
        refine congrArg _ (List.map_congr_left fun k _ => ?_)
        rw [Function.comp_apply, UInt64.ofNat_add, UInt64.add_assoc]

/-- No id is given out twice before the allocator has gone all the way round. -/
theorem given_nodup (session : Session σ) (edits : List Edit)
    (h : edits.length < UInt32.size - 1)
    (r : Replica) (s : σ) : (given session edits r s).Nodup := by
  obtain ⟨steps, hsorted, hbound, hgiven⟩ := given_ahead session edits r s
  have hround : edits.length * SlotTable.reach < UInt64.size := by
    have hle : edits.length * SlotTable.reach ≤ (UInt32.size - 2) * SlotTable.reach :=
      Nat.mul_le_mul_right _ (by omega)
    exact Nat.lt_of_le_of_lt hle (by decide)
  rw [hgiven]
  refine List.Nodup.map_on (fun i hi j hj he => ?_) (hsorted.imp fun h => Nat.ne_of_lt h)
  have hi := hbound i hi
  have hj := hbound j hj
  have he := congrArg UInt64.toNat ((UInt64.add_right_inj _).mp he)
  rwa [UInt64.toNat_ofNat', UInt64.toNat_ofNat',
    Nat.mod_eq_of_lt (show i < UInt64.size by omega),
    Nat.mod_eq_of_lt (show j < UInt64.size by omega)] at he

theorem given_append (session : Session σ) (edits later : List Edit) (r : Replica) (s : σ) :
    given session (edits ++ later) r s = given session edits r s ++
      given session later (editAll session edits r s).1 (editAll session edits r s).2 := by
  induction edits generalizing r s with
  | nil => rfl
  | cons e edits ih =>
    simp only [List.cons_append, given, editAll, ih, List.append_assoc]

end allocator

/-! ## The ids of the records -/

/-- A change brings in no id but that of an added record. -/
theorem Change.mem_ids {change : Change} {l : List Record} {u : UniqueId}
    (h : u ∈ (change.records l).map (·.uniqueId)) :
    u ∈ l.map (·.uniqueId) ∨ ∃ x, change = .added x ∧ x.uniqueId = u := by
  cases change with
  | kept => exact Or.inl h
  | added x =>
    rcases List.mem_cons.mp h with rfl | h
    · exact Or.inr ⟨x, rfl, rfl⟩
    · exact Or.inl h
  | replaced x =>
    have hids := Slots.map_key_overwriting Record.uniqueId x l
    exact Or.inl (hids ▸ h)
  | removed v => exact Or.inl ((List.filter_sublist.map Record.uniqueId).subset h)

/-- The effect of an edit, and the id of the record it adds, if it adds one. -/
theorem edit_effect (hosts : Hosts session name id view) (h : InStep name id view r s) (e : Edit) :
    ∃ change log, Effect view r s (r.edit session.recorded e s).2 change log ∧
      ∀ x, change = .added x → e.takes r = some x.uniqueId := by
  cases e with
  | add content =>
    obtain ⟨change, log, hadding, hcourse⟩ := add_course hosts h content
    refine ⟨change, log, hcourse.toEffect, fun x hx => ?_⟩
    subst hx
    cases hadding
    rfl
  | overwrite entry content =>
    obtain ⟨looks, -, hunfound | ⟨slot, change, log, hcourse, hran⟩⟩ :=
      overwrite_course hosts h entry content
    · exact ⟨_, _, hunfound.toEffect, nofun⟩
    · refine ⟨_, _, hcourse.toEffect, fun x hx => ?_⟩
      subst hx
      split at hran <;> cases hran
  | delete entry =>
    obtain ⟨looks, -, hunfound | ⟨slot, change, log, hcourse, hran⟩⟩ := delete_course hosts h entry
    · exact ⟨_, _, hunfound.toEffect, nofun⟩
    · refine ⟨_, _, hcourse.toEffect, fun x hx => ?_⟩
      subst hx
      cases hran

theorem edit_ids (hosts : Hosts session name id view) (h : InStep name id view r s) (e : Edit)
    {u : UniqueId} (hu : u ∈ (view (r.edit session.recorded e s).2.2.1).values.map (·.uniqueId)) :
    u ∈ (view s.1).values.map (·.uniqueId) ∨ e.takes r = some u := by
  obtain ⟨change, log, heffect, hadded⟩ := edit_effect hosts h e
  rcases Change.mem_ids ((heffect.device.map _).subset hu) with hold | ⟨x, hx, rfl⟩
  · exact Or.inl hold
  · exact Or.inr (hadded x hx)

/-- The records behind any edits are among those before and those added. -/
theorem editAll_ids (hosts : Hosts session name id view) (edits : List Edit)
    (h : InStep name id view r s) {u : UniqueId}
    (hu : u ∈ (view (editAll session.recorded edits r s).2.1).values.map (·.uniqueId)) :
    u ∈ (view s.1).values.map (·.uniqueId) ∨ u ∈ given session.recorded edits r s := by
  induction edits generalizing r s with
  | nil => exact Or.inl hu
  | cons e edits ih =>
    obtain ⟨answer, r₁, s₁, hrun, h₁⟩ := edit_inStep hosts h e
    have hids := edit_ids hosts h e (u := u)
    rw [hrun] at hids
    simp only [editAll, given, hrun, List.mem_append, Option.mem_toList] at hu ⊢
    rcases ih h₁ hu with hbefore | hgiven
    · rcases hids hbefore with hold | hnew
      · exact Or.inl hold
      · exact Or.inr (Or.inl hnew)
    · exact Or.inr (Or.inr hgiven)

/-! ## Deletion -/

theorem delete_gone (hosts : Hosts session name id view) (h : InStep name id view r s)
    {entry : Entry} {r' : Replica}
    (hrun : r.delete session.recorded entry s = (.ok (), r', s')) :
    entry.uniqueId ∉ (view s'.1).values.map (·.uniqueId) := by
  obtain ⟨looks, -, hends⟩ := delete_course hosts h entry
  rw [hrun] at hends
  rcases hends with hunfound | ⟨slot, change, log, hcourse, hdeleting⟩
  · cases hunfound.answered
  · cases hdeleting with
    | refused =>
      have hall := hcourse.answered
      cases hall
    | deleted fetched => exact notMem_ids_of_perm_filter hcourse.device

/-- An entry whose record is not on the device finds none. -/
theorem currentSlot_gone (session : Session σ) (h : InStep name id view r s) {u : UniqueId}
    (hgone : u ∉ (view s.1).values.map (·.uniqueId)) (hfetched : lastFetch s.2 = some true) :
    r.currentSlot session.recorded u s = (.error (.staleEntry u), r, s) := by
  have hfresh := h.fetched hfetched
  have hnone : r.table.slotOf? u = none := by
    rw [SlotTable.slotOf?_eq_none_iff, h.table hfresh, Slots.values_map]
    exact hgone
  simp [currentSlot, hfresh, hnone]

/-- **A deleted entry stays deleted until its id is given out again.**  An entry has been deleted
after any edits, and any have followed, each of which may have failed at any of its commands; the
latest fetch of the slot table was accepted.  Unless the entry's id has been given out again, no
entry of it can be overwritten or deleted, and the attempt changes nothing.  If the entry's record
was itself added through this replica, its id is not given out again within `2 ^ 32 - 2` edits. -/
theorem deleted_stays_deleted (hosts : Hosts session name id view) {s : σ}
    (distinct : ((view s).values.map (·.uniqueId)).Nodup) {s₁ : σ × List Exchange}
    (loaded : load session.recorded name (s, []) = (.ok r, s₁))
    {edits later : List Edit} {entry : Entry} {r₂ r₃ r₄ : Replica} {s₂ s₃ s₄ : σ × List Exchange}
    (edited : editAll session.recorded edits r s₁ = (r₂, s₂))
    (deleted : r₂.delete session.recorded entry s₂ = (.ok (), r₃, s₃))
    (continued : editAll session.recorded later r₃ s₃ = (r₄, s₄))
    (fetched : lastFetch s₄.2 = some true) :
    (entry.uniqueId ∉ given session.recorded later r₃ s₃ →
      ∀ (old : Entry) (content : Record), old.uniqueId = entry.uniqueId →
        r₄.overwrite session.recorded old content s₄
          = (.error (.staleEntry entry.uniqueId), r₄, s₄) ∧
        r₄.delete session.recorded old s₄ = (.error (.staleEntry entry.uniqueId), r₄, s₄)) ∧
    (entry.uniqueId ∈ given session.recorded edits r s₁ → edits.length + later.length < 2 ^ 32 - 2 →
      entry.uniqueId ∉ given session.recorded later r₃ s₃) := by
  have h₂ : InStep name id view r₂ s₂ := by
    obtain ⟨_, _, hrun, h⟩ := editAll_inStep hosts edits (load_inStep hosts distinct loaded)
    rw [edited] at hrun
    cases hrun
    exact h
  have h₃ := inStep_of_run (delete_inStep hosts h₂ entry) deleted
  have h₄ : InStep name id view r₄ s₄ := by
    obtain ⟨_, _, hrun, h⟩ := editAll_inStep hosts later h₃
    rw [continued] at hrun
    cases hrun
    exact h
  constructor
  · intro hnew old content hold
    have hgone : old.uniqueId ∉ (view s₄.1).values.map (·.uniqueId) := by
      intro hmem
      have hids := editAll_ids hosts later h₃ (u := old.uniqueId)
      rw [continued, hold] at hids
      rw [hold] at hmem
      rcases hids hmem with hbefore | hgiven
      · exact delete_gone hosts h₂ deleted hbefore
      · exact hnew hgiven
    have hlook := currentSlot_gone session h₄ hgone fetched
    simp only [overwrite, delete, hlook]
    rw [hold]
    exact ⟨rfl, rfl⟩
  · intro hgiven hround hagain
    have hnodup := given_nodup session.recorded (edits ++ .delete entry :: later)
      (by rw [List.length_append, List.length_cons]; simp [UInt32.size]; omega) r s₁
    rw [given_append, edited] at hnodup
    have hdisjoint := (List.nodup_append.mp hnodup).2.2
    refine hdisjoint _ hgiven _ ?_ rfl
    simpa [given, edit, deleted, Edit.takes] using hagain

/-- A record is added, deleted, and another added after it. -/
theorem deleted_stays_deleted_added :
    let memo (u : UniqueId) : Record := ⟨"Memos", u, 0, ⟨#[1]⟩⟩
    let d : Device :=
      { databases := [{ name := "Memos", records := Slots.numbered 0 [memo 1, memo 2] }] }
    let session := guarded "Memos" 1
    ∃ r s₁, load session.recorded "Memos" (d, []) = (.ok r, s₁) ∧
      ∃ r₂ s₂ r₃ s₃ r₄ s₄, editAll session.recorded [.add (memo 0)] r s₁ = (r₂, s₂) ∧
        r₂.delete session.recorded ⟨2, memo 3⟩ s₂ = (.ok (), r₃, s₃) ∧
        editAll session.recorded [.add (memo 0)] r₃ s₃ = (r₄, s₄) ∧
        r₄.delete session.recorded ⟨2, memo 3⟩ s₄ = (.error (.staleEntry 3), r₄, s₄) := by
  intro memo d session
  obtain ⟨r, s₁, hload, h⟩ := exists_of_answersWith
    (load session.recorded "Memos" (d, [])) (fun r s₁ =>
      let added := editAll session.recorded [.add (memo 0)] r s₁
      answersWith (added.1.delete session.recorded ⟨2, memo 3⟩ added.2) fun _ w =>
        decide (lastFetch (editAll session.recorded [.add (memo 0)] w.1 w.2).2.2 = some true ∧
          (memo 3).uniqueId ∈ given session.recorded [.add (memo 0)] r s₁)) (by decide +kernel)
  obtain ⟨⟨⟩, ⟨r₃, s₃⟩, hdelete, h⟩ := exists_of_answersWith _ _ h
  obtain ⟨hfetched, hgiven⟩ := of_decide_eq_true h
  refine ⟨r, s₁, hload, _, _, r₃, s₃, _, _, rfl, hdelete, rfl, ?_⟩
  have hadded : editAll session.recorded [.add (memo 0)] r₃ s₃ = _ := rfl
  have hstays := deleted_stays_deleted (hosts_guarded "Memos" 1) (s := d) (by decide) hload
    rfl hdelete hadded hfetched
  exact (hstays.1 (hstays.2 hgiven (by decide)) ⟨2, memo 3⟩ (memo 0) rfl).2

/-- **The id of a record that was loaded can be given out again.**  No command is refused, and the
entry of the deleted record deletes the record that was added since. -/
theorem deleted_reused :
    let memo (u : UniqueId) : Record := ⟨"Memos", u, 0, ⟨#[1]⟩⟩
    let d : Device :=
      { databases := [{ name := "Memos", records := Slots.numbered 0 [memo 1, memo 2] }] }
    let session := guarded "Memos" 1
    ∃ r s₁, load session.recorded "Memos" (d, []) = (.ok r, s₁) ∧
      ∃ r₂ s₂, r.delete session.recorded ⟨0, memo 1⟩ s₁ = (.ok (), r₂, s₂) ∧
        ∃ e r₃ s₃, r₂.add session.recorded (memo 0) s₂ = (.ok e, r₃, s₃) ∧
          ∃ r₄ s₄, r₃.delete session.recorded ⟨0, memo 1⟩ s₃ = (.ok (), r₄, s₄) ∧
            (∀ x ∈ s₄.2, x.accepted) ∧ e.record ∈ (recordsAt 1 s₃.1).values ∧
            e.record ∉ (recordsAt 1 s₄.1).values := by
  intro memo d session
  obtain ⟨r, s₁, hload, h⟩ := exists_of_answersWith
    (load session.recorded "Memos" (d, [])) (fun r s₁ =>
      answersWith (r.delete session.recorded ⟨0, memo 1⟩ s₁) fun _ w₂ =>
        answersWith (w₂.1.add session.recorded (memo 0) w₂.2) fun e w₃ =>
          answersWith (w₃.1.delete session.recorded ⟨0, memo 1⟩ w₃.2) fun _ w₄ =>
            decide ((∀ x ∈ w₄.2.2, x.accepted) ∧ e.record ∈ (recordsAt 1 w₃.2.1).values ∧
              e.record ∉ (recordsAt 1 w₄.2.1).values)) (by decide +kernel)
  obtain ⟨⟨⟩, ⟨r₂, s₂⟩, hdelete, h⟩ := exists_of_answersWith _ _ h
  obtain ⟨e, ⟨r₃, s₃⟩, hadd, h⟩ := exists_of_answersWith _ _ h
  obtain ⟨⟨⟩, ⟨r₄, s₄⟩, hagain, h⟩ := exists_of_answersWith _ _ h
  exact ⟨r, s₁, hload, r₂, s₂, hdelete, e, r₃, s₃, hadd, r₄, s₄, hagain, of_decide_eq_true h⟩

end Replica

end Palmtop
