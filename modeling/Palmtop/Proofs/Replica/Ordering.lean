import Palmtop.Proofs.Replica.Deleted

/-! # The order of the entries

An edit that adds a record puts it first, one that deletes a record takes it out, and every other
leaves the entries where they are, even one that deletes a record and adds it again at another slot
(`edit_order`).  So behind any edits those records come first that were added and have been there
since, the newest first, and behind them those that were loaded and have been there throughout, in
the order of their slots at that time.
-/
namespace Palmtop.Replica
open Device

variable {σ : Type} {session : Session σ} {name : String} {id : DatabaseId}
  {view : σ → Slots Record} {r : Replica} {s : σ × List Exchange} {u : UniqueId}

/-! ## Ids on the device -/

/-- The ids of the records that are there. -/
def idsOf (view : σ → Slots Record) (s : σ × List Exchange) : List UniqueId :=
  (view s.1).values.map (·.uniqueId)

/-- The id of the record that an edit adds, if it has come to the device with the edit. -/
def arrival (session : Session σ) (view : σ → Slots Record) (e : Edit) (r : Replica)
    (s : σ × List Exchange) : Option UniqueId :=
  (e.takes r).filter fun u => u ∉ idsOf view s ∧ u ∈ idsOf view (r.edit session.recorded e s).2.2

/-- Whether a record of this id is there behind each of these edits. -/
def lasts (session : Session σ) (view : σ → Slots Record) :
    List Edit → Replica → σ × List Exchange → UniqueId → Bool
  | [], _, _, _ => true
  | e :: edits, r, s, u =>
    let (_, r', s') := r.edit session.recorded e s
    u ∈ idsOf view s' && lasts session view edits r' s' u

/-- The ids of the records that these edits have added and that have been there since, newest
first. -/
def arrivals (session : Session σ) (view : σ → Slots Record) :
    List Edit → Replica → σ × List Exchange → List UniqueId
  | [], _, _ => []
  | e :: edits, r, s =>
    let (_, r', s') := r.edit session.recorded e s
    arrivals session view edits r' s' ++
      (arrival session view e r s).toList.filter (lasts session view edits r' s')

theorem InStep.mem_ids (h : InStep name id view r s) :
    u ∈ r.entries.map (·.uniqueId) ↔ u ∈ idsOf view s := by
  have hperm := h.covers.complete.map (·.uniqueId)
  rw [List.map_map] at hperm
  exact hperm.mem_iff

/-! ## Edits -/

theorem Effect.ids {after : Replica × σ × List Exchange} {change : Change} {log : List Exchange}
    (h : Effect view r s after change log) :
    after.1.entries.map (·.uniqueId)
      = (change.records (r.entries.map (·.record))).map (·.uniqueId) := by
  rw [← h.entries, List.map_map]
  rfl

theorem Change.ids_replaced (x : Record) (l : List Record) :
    ((Change.replaced x).records l).map (·.uniqueId) = l.map (·.uniqueId) :=
  Slots.map_key_overwriting Record.uniqueId x l

/-- A change puts an id first, or takes some out. -/
theorem Change.ids_cases (change : Change) (l : List Record) :
    (∃ x, change = .added x ∧
      (change.records l).map (·.uniqueId) = x.uniqueId :: l.map (·.uniqueId)) ∨
    ∃ keep, (change.records l).map (·.uniqueId) = (l.map (·.uniqueId)).filter keep := by
  cases change with
  | kept => exact Or.inr ⟨fun _ => true, by simp [records]⟩
  | added x => exact Or.inl ⟨x, rfl, rfl⟩
  | replaced x => exact Or.inr ⟨fun _ => true, by rw [List.filter_true, ids_replaced]⟩
  | removed u => exact Or.inr ⟨(· ≠ u), by rw [List.filter_map]; rfl⟩

/-- An arrival comes first, and the others that are left stay in their order. -/
theorem edit_order (hosts : Hosts session name id view) (h : InStep name id view r s) (e : Edit)
    {answer : Except Error (Option Entry)} {r' : Replica} {s' : σ × List Exchange}
    (hrun : r.edit session.recorded e s = (answer, r', s')) :
    r'.entries.map (·.uniqueId) = (arrival session view e r s).toList ++
      (r.entries.map (·.uniqueId)).filter (· ∈ idsOf view s') := by
  obtain ⟨change, log, heffect, hadded⟩ := edit_effect hosts h e
  have h' := inStep_of_run (edit_inStep hosts h e) hrun
  rw [hrun] at heffect
  have hids := heffect.ids
  rcases change.ids_cases (r.entries.map (·.record)) with ⟨x, rfl, hput⟩ | ⟨keep, hkept⟩
  · rw [hput, List.map_map] at hids
    change _ = x.uniqueId :: r.entries.map (·.uniqueId) at hids
    obtain ⟨hnew, -⟩ := List.nodup_cons.mp (hids ▸ h'.covers.uniqueIds_nodup)
    have harrival : arrival session view e r s = some x.uniqueId := by
      have hhere : x.uniqueId ∈ idsOf view s' := h'.mem_ids.mp (hids ▸ List.mem_cons_self)
      rw [arrival, hadded x rfl, hrun, Option.filter_some, if_pos]
      simpa [hhere] using mt h.mem_ids.mpr hnew
    have hall : ∀ u ∈ r.entries.map (·.uniqueId), u ∈ idsOf view s' := fun u hu =>
      h'.mem_ids.mp (hids ▸ List.mem_cons_of_mem _ hu)
    rw [hids, harrival, List.filter_eq_self.mpr fun u hu => decide_eq_true (hall u hu)]
    rfl
  · rw [hkept, List.map_map] at hids
    change _ = (r.entries.map (·.uniqueId)).filter keep at hids
    have hmem {u : UniqueId} : u ∈ idsOf view s' ↔ u ∈ r.entries.map (·.uniqueId) ∧ keep u := by
      rw [← h'.mem_ids, hids, List.mem_filter]
    have harrival : arrival session view e r s = none := by
      rw [arrival, hrun, Option.filter_eq_none_iff]
      intro u _ harrived
      obtain ⟨hgone, hhere⟩ := of_decide_eq_true harrived
      exact hgone (h.mem_ids.mp (hmem.mp hhere).1)
    rw [hids, harrival]
    refine List.filter_congr fun u hu => ?_
    rw [Bool.eq_iff_iff, decide_eq_true_iff, hmem]
    exact (and_iff_right hu).symm

/-! ## Runs -/

/-- Behind any edits, what has arrived and stayed comes first, newest first, and then what was there
and has stayed. -/
theorem editAll_order (hosts : Hosts session name id view) (edits : List Edit)
    (h : InStep name id view r s) :
    (editAll session.recorded edits r s).1.entries.map (·.uniqueId)
      = arrivals session view edits r s ++
        (r.entries.map (·.uniqueId)).filter (lasts session view edits r s) := by
  induction edits generalizing r s with
  | nil => simp [editAll, arrivals, lasts]
  | cons e edits ih =>
    obtain ⟨answer, r₁, s₁, hrun, h₁⟩ := edit_inStep hosts h e
    have hstep := edit_order hosts h e hrun
    simp only [editAll, arrivals, hrun]
    rw [ih h₁, hstep, List.filter_append, List.filter_filter, List.append_assoc]
    simp only [lasts, hrun, Bool.and_comm]

/-- Fetching the table moves no entry, wherever the records have gone. -/
theorem uniqueIds_refresh (session : Session σ) (r : Replica) (s : σ) :
    (r.refresh session s).2.1.entries.map (·.uniqueId) = r.entries.map (·.uniqueId) := by
  unfold refresh
  split
  · rfl
  · simp [Entry.uniqueId, Function.comp_def]

/-- Overwriting a record that is there behind it moves no entry. -/
theorem overwrite_order (hosts : Hosts session name id view) (h : InStep name id view r s)
    (entry : Entry) (content : Record) {answer : Except Error Entry} {r' : Replica}
    {s' : σ × List Exchange}
    (hrun : r.overwrite session.recorded entry content s = (answer, r', s'))
    (hthere : accepted answer = true ∨ entry.uniqueId ∈ idsOf view s') :
    r'.entries.map (·.uniqueId) = r.entries.map (·.uniqueId) := by
  have same {change : Change} {log : List Exchange} (heffect : Effect view r s (r', s') change log)
      (hchange : ∀ l, (change.records l).map (·.uniqueId) = l.map (·.uniqueId)) :
      r'.entries.map (·.uniqueId) = r.entries.map (·.uniqueId) := by
    rw [heffect.ids, hchange, List.map_map]
    rfl
  -- an overwriting that leaves the record deleted has been refused, and the record is gone
  have removed {log : List Exchange}
      (heffect : Effect view r s (r', s') (.removed entry.uniqueId) log)
      (hrefused : accepted answer = false) : False := by
    rcases hthere with haccepted | hthere
    · rw [haccepted] at hrefused
      cases hrefused
    · exact notMem_ids_of_perm_filter heffect.device hthere
  obtain ⟨looks, -, hends⟩ := overwrite_course hosts h entry content
  rw [hrun] at hends
  rcases hends with hunfound | ⟨slot, change, log, hcourse, hran⟩
  · exact same hunfound.toEffect fun _ => rfl
  · split at hran
    · cases hran with
      | refused => exact same hcourse.toEffect fun _ => rfl
      | written => exact same hcourse.toEffect (Change.ids_replaced _)
    · cases hran with
      | refused => exact same hcourse.toEffect fun _ => rfl
      | added => exact same hcourse.toEffect (Change.ids_replaced _)
      | cutOff => exact (removed hcourse.toEffect hcourse.answered).elim
      | notAdded => exact (removed hcourse.toEffect hcourse.answered).elim

/-- **The order of the entries.**  A replica has been loaded, and behind that edited in any way,
where any command may have been refused.  Its entries are those of the records added since then and
still there, newest first, and behind them those of the records that were loaded and are still
there, in the order of their slots at that time.  No fetch of the table moves an entry, whatever the
slots of the records are by then, and no overwriting does that succeeds, or leaves the record on the
device. -/
theorem entries_inOrder (hosts : Hosts session name id view) {s : σ}
    (distinct : ((view s).values.map (·.uniqueId)).Nodup) {s₁ : σ × List Exchange}
    (loaded : load session.recorded name (s, []) = (.ok r, s₁)) (edits : List Edit) :
    let (r', s') := editAll session.recorded edits r s₁
    r'.entries.map (·.uniqueId) = arrivals session view edits r s₁ ++
      ((view s).values.map (·.uniqueId)).filter (lasts session view edits r s₁) ∧
    (∀ renumbered, (r'.refresh session.recorded renumbered).2.1.entries.map (·.uniqueId)
      = r'.entries.map (·.uniqueId)) ∧
    ∀ entry content, let (answer, r'', s'') := r'.overwrite session.recorded entry content s'
      accepted answer = true ∨ entry.uniqueId ∈ idsOf view s'' →
        r''.entries.map (·.uniqueId) = r'.entries.map (·.uniqueId) := by
  have hloaded := load_inStep hosts distinct loaded
  have hids : r.entries.map (·.uniqueId) = (view s).values.map (·.uniqueId) := by
    obtain ⟨-, -, -, hv, -⟩ := load_spec hosts loaded
    rw [← hv, ← load_records hosts loaded, List.map_map]
    rfl
  have horder := editAll_order hosts edits hloaded
  obtain ⟨r', s', hrun, h⟩ := editAll_inStep hosts edits hloaded
  rw [hrun] at horder ⊢
  refine ⟨hids ▸ horder, fun renumbered => uniqueIds_refresh _ _ _, fun entry content => ?_⟩
  exact overwrite_order hosts h entry content rfl

/-- A record is added, another replaced with the last fetch refused, one deleted, and another added;
on the device the one that was replaced has gone behind the others. -/
theorem entries_inOrder_refused :
    let task (u : UniqueId) : Record := ⟨"Tasks", u, 0, ⟨#[1]⟩⟩
    let d : Device :=
      { databases := [{ name := "Tasks", records := Slots.numbered 0 [task 1, task 2, task 3] }]
        renumbering := true }
    let session := (guarded "Tasks" 1).refusing
    let view (s : Device × List Bool) : Slots Record := recordsAt 1 s.1
    -- let through: the loading, the addition, and of the replacing all but the last command
    let plan := List.replicate 10 false ++ [true]
    let edits := [Edit.add (task 0), .overwrite ⟨0, task 2⟩ (task 0), .delete ⟨0, task 1⟩,
      .add (task 0)]
    ∃ r s₁, load session.recorded "Tasks" ((d, plan), []) = (.ok r, s₁) ∧
      let (r', s') := editAll session.recorded edits r s₁
      idsOf view s' = [3, 4, 2, 5] ∧ r'.entries.map (·.uniqueId) = [5, 4] ++ [2, 3] ∧
        (∀ renumbered, (r'.refresh session.recorded renumbered).2.1.entries.map (·.uniqueId)
          = r'.entries.map (·.uniqueId)) ∧
        let (answer, r'', _) := r'.overwrite session.recorded ⟨0, task 3⟩ (task 0) s'
        accepted answer = true ∧ r''.entries.map (·.uniqueId) = r'.entries.map (·.uniqueId) := by
  intro task d session view plan edits
  obtain ⟨r, s₁, hload, h⟩ := exists_of_answersWith
    (load session.recorded "Tasks" ((d, plan), [])) (fun r s₁ =>
      let (r', s') := editAll session.recorded edits r s₁
      decide (idsOf view s' = [3, 4, 2, 5] ∧ arrivals session view edits r s₁ = [5, 4] ∧
        ((view (d, plan)).values.map (·.uniqueId)).filter (lasts session view edits r s₁) = [2, 3] ∧
        accepted (r'.overwrite session.recorded ⟨0, task 3⟩ (task 0) s').1 = true))
    (by decide +kernel)
  obtain ⟨hids, harrivals, hlasts, haccepted⟩ := of_decide_eq_true h
  obtain ⟨horder, hrefresh, hoverwrite⟩ := entries_inOrder (hosts_guarded "Tasks" 1).refusing
    (s := (d, plan)) (by decide) hload edits
  rw [harrivals, hlasts] at horder
  exact ⟨r, s₁, hload, hids, horder, hrefresh, haccepted,
    hoverwrite ⟨0, task 3⟩ (task 0) (Or.inl haccepted)⟩

end Palmtop.Replica
