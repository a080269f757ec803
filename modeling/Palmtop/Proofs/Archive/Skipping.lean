import Palmtop.Proofs.Archive.Counting

/-! # What has been skipped does not come again

Whatever the sizes of its members, an archive in which the entries of each database follow one
another has this law: of a database that was skipped, no record is handed out any more
(`Cursor.Skips`).  The entries ahead of a cursor are told by their databases alone (`Cursor.Faces`).
-/
namespace Palmtop.Archive.Cursor

/-- The databases of the entries among the members. -/
def databases (ms : List Tar.Member) : List String :=
  ms.filterMap fun m => entry? m |>.map (·.database)

/-- Ahead of the cursor there are entries of the databases of these records, one for each. -/
def Faces (c : Cursor) (rs : List Record) : Prop :=
  c.peeked.toList.map (·.database) ++ databases c.members = rs.map (·.database)

variable {c c' : Cursor} {rs : List Record} {r : Record} {m : Tar.Member} {ms : List Tar.Member}

theorem databases_cons_of_none (h : entry? m = none) : databases (m :: ms) = databases ms :=
  List.filterMap_cons_none (by rw [h]; rfl)

theorem databases_cons_of_some {name : EntryName} (h : entry? m = some name) :
    databases (m :: ms) = name.database :: databases ms :=
  List.filterMap_cons_some (by rw [h]; rfl)

theorem databases_of_stored (h : List.Forall₂ Writer.Stored ms rs) :
    databases ms = (rs.filter (·.database ≠ ".")).map (·.database) := by
  induction h with
  | nil => rfl
  | @cons m r _ _ hm _ ih =>
    have hentry := hm.entry?_eq
    by_cases hdot : r.database = "."
    · rw [if_pos hdot] at hentry
      rw [databases_cons_of_none hentry, ih, List.filter_cons_of_neg (by simp [hdot])]
    · rw [if_neg hdot] at hentry
      rw [databases_cons_of_some hentry, ih, List.filter_cons_of_pos (by simp [hdot]),
        List.map_cons]

/-- Members are passed over up to one of a database that is wanted. -/
theorem databases_seek {wanted : String → Bool} {ms' : List Tar.Member}
    (hrs : databases ms = rs.map (·.database)) (h : seek wanted ms = some (.ok r, ms')) :
    ∃ pre x rs', rs = pre ++ x :: rs' ∧ x.database = r.database ∧ wanted r.database = true ∧
      databases ms' = rs'.map (·.database) := by
  induction ms generalizing rs with
  | nil => cases h
  | cons m ms ih =>
    rw [seek] at h
    cases hentry : entry? m with
    | none =>
      rw [hentry] at h
      rw [databases_cons_of_none hentry] at hrs
      exact ih hrs h
    | some name =>
      rw [hentry] at h
      dsimp only at h
      rw [databases_cons_of_some hentry] at hrs
      obtain ⟨x, rs, rfl, hx, hrest⟩ := List.map_eq_cons_iff.mp hrs.symm
      split at h
      · rename_i hwanted
        obtain ⟨hr, rfl⟩ := Prod.mk.inj (Option.some.inj h)
        have hdatabase := (sound_of_recordOf hr).2
        exact ⟨[], x, rs, rfl, hx.trans hdatabase.symm, hdatabase ▸ hwanted, hrest.symm⟩
      · obtain ⟨pre, y, rs', rfl, hy⟩ := ih hrest.symm h
        exact ⟨x :: pre, y, rs', rfl, hy⟩

theorem faces_of_peeked (hp : c.peeked = none) :
    c.Faces rs ↔ databases c.members = rs.map (·.database) := by
  rw [Faces, hp, Option.toList_none, List.map_nil, List.nil_append]

/-- What is pulled is wanted. -/
theorem Faces.pull (h : c.Faces rs) (hp : c.peeked = none) (hpull : c.pull = (.ok (some r), c')) :
    ∃ members pre x rs', c' = { c with members } ∧ rs = pre ++ x :: rs' ∧
      x.database = r.database ∧ c.wanted r.database = true ∧
      databases members = rs'.map (·.database) := by
  unfold Cursor.pull at hpull
  split at hpull
  · rename_i record members hseek
    cases hpull
    obtain ⟨pre, x, rs', hrs, hx⟩ := databases_seek ((faces_of_peeked hp).mp h) hseek
    exact ⟨members, pre, x, rs', rfl, hrs, hx⟩
  · cases hpull
  · split at hpull
    · cases hpull
    · cases hpull

theorem pull_eq_none (hpull : c.pull = (.ok none, c')) :
    c' = { c with members := [], ended := true } := by
  unfold Cursor.pull at hpull
  split at hpull
  · cases hpull
  · cases hpull
  · split at hpull
    · cases hpull
    · cases hpull
      rfl

theorem current_taken (c : Cursor) (r : Record) : (c.taken r).current = some r.database := by
  unfold Cursor.taken
  split
  · assumption
  · rfl

/-! ## Skipping -/

/-- The databases were skipped, each once, and are behind the cursor or are being passed over. -/
structure Skips (skipped : List String) (c : Cursor) : Prop where
  nodup : skipped.Nodup
  ahead : ∃ rs, Grouped rs ∧ c.Faces rs ∧ ∀ s ∈ skipped, (∀ x ∈ rs, x.database ≠ s) ∨
    c.skipping = some s ∧ c.current = none ∧ c.peeked = none ∧ Leads s rs

/-- Behind a record, its database may come again, and none that was skipped before. -/
structure Behind (skipped : List String) (c : Cursor) (r : Record) : Prop where
  current : c.current = some r.database
  peeked : c.peeked = none
  fresh : r.database ∉ skipped
  ahead : ∃ rs, Grouped rs ∧ Leads r.database rs ∧ c.Faces rs ∧
    ∀ s ∈ skipped, ∀ x ∈ rs, x.database ≠ s

variable {skipped : List String}

theorem Skips.next (h : Skips skipped c) (hnext : c.next = (.ok (some r), c')) :
    Behind skipped c' r := by
  obtain ⟨-, rs, hgrouped, hfaces, hskipped⟩ := h
  unfold Cursor.next at hnext
  split at hnext
  · -- the record was read ahead
    rename_i record hpeeked
    cases hnext
    rw [Faces, hpeeked, Option.toList_some, List.map_singleton, List.singleton_append] at hfaces
    obtain ⟨x, rs, rfl, hx, hrest⟩ := List.map_eq_cons_iff.mp hfaces.symm
    have hbehind : ∀ s ∈ skipped, ∀ y ∈ x :: rs, y.database ≠ s := fun s hs =>
      (hskipped s hs).resolve_right fun hpassed => by simp [hpeeked] at hpassed
    obtain ⟨hmembers, -, hnone, -⟩ := taken_rest { c with peeked := none } r
    refine ⟨current_taken _ r, hnone, fun hr => hbehind _ hr x List.mem_cons_self hx, rs,
      hgrouped.2, hx ▸ hgrouped.1, ?_, fun s hs y hy => hbehind s hs y (List.mem_cons_of_mem _ hy)⟩
    rw [faces_of_peeked hnone, hmembers]
    exact hrest.symm
  · rename_i hpeeked
    split at hnext
    · rename_i record c₁ hpull
      cases hnext
      obtain ⟨members, pre, x, rs', rfl, rfl, hx, hwanted, hrest⟩ := hfaces.pull hpeeked hpull
      obtain ⟨hmembers, -, hnone, -⟩ := taken_rest { c with members } r
      have hafter : ∀ s ∈ skipped, r.database ≠ s ∧ ∀ y ∈ rs', y.database ≠ s := by
        intro s hs
        rcases hskipped s hs with habsent | ⟨hskipping, -, -, hleads⟩
        · have hmem : x ∈ pre ++ x :: rs' := List.mem_append_right _ List.mem_cons_self
          exact ⟨hx ▸ habsent x hmem, fun y hy =>
            habsent y (List.mem_append_right _ (List.mem_cons_of_mem _ hy))⟩
        · rw [wanted_of_skipping hskipping, Bool.and_eq_true, decide_eq_true_eq] at hwanted
          exact ⟨hwanted.1, hleads.not_mem (hx ▸ hwanted.1)⟩
      obtain ⟨hleads, hgrouped⟩ := hgrouped.of_append
      refine ⟨current_taken _ r, hnone.trans hpeeked, fun hr => (hafter _ hr).1 rfl, rs', hgrouped,
        hx ▸ hleads, ?_, fun s hs => (hafter s hs).2⟩
      rw [faces_of_peeked (hnone.trans hpeeked), hmembers]
      exact hrest
    · cases hnext
    · cases hnext

theorem Behind.skips (h : Behind skipped c r) (hnodup : skipped.Nodup) : Skips skipped c := by
  obtain ⟨-, -, -, rs, hgrouped, -, hfaces, hbehind⟩ := h
  exact ⟨hnodup, rs, hgrouped, hfaces, fun s hs => Or.inl (hbehind s hs)⟩

/-- The database of the record behind which the cursor is can be skipped. -/
theorem Behind.skip (h : Behind skipped c r) (hnodup : skipped.Nodup) :
    Skips (skipped ++ [r.database]) c.skip := by
  obtain ⟨hcurrent, hpeeked, hfresh, rs, hgrouped, hleads, hfaces, hbehind⟩ := h
  have hskip : c.skip = { c with current := none, skipping := some r.database } := by
    simp only [Cursor.skip, hcurrent, hpeeked, Option.filter_none]
  rw [hskip]
  refine ⟨List.nodup_append.mpr ⟨hnodup, List.pairwise_singleton _ _, ?_⟩, rs, hgrouped, hfaces, ?_⟩
  · rintro s hs _ hr rfl
    exact hfresh (List.mem_singleton.mp hr ▸ hs)
  · intro s hs
    rcases List.mem_append.mp hs with hs | hs
    · exact Or.inl (hbehind s hs)
    · obtain rfl := List.mem_singleton.mp hs
      exact Or.inr ⟨rfl, rfl, hpeeked, hleads⟩

/-- At the end, nothing is ahead. -/
theorem Skips.next_none (h : Skips skipped c) (hnext : c.next = (.ok none, c')) :
    Skips skipped c' := by
  unfold Cursor.next at hnext
  split at hnext
  · cases hnext
  rename_i hpeeked
  split at hnext
  · cases hnext
  · rename_i hpull
    cases hnext
    rw [pull_eq_none hpull]
    refine ⟨h.nodup, [], trivial, ?_, fun _ _ => Or.inl (List.forall_mem_nil _)⟩
    exact (faces_of_peeked (c := { c with members := [], ended := true }) hpeeked).mpr rfl
  · cases hnext

/-- Where the entries of each database follow one another, a cursor that has looked at the first has
skipped nothing. -/
theorem skips_of_peek {database : Option String} (hgrouped : Grouped rs)
    (hmembers : databases c.members = rs.map (·.database)) (hp : c.peeked = none)
    (hpeek : c.peek = (.ok database, c')) : Skips [] c' := by
  have hfaces : c.Faces rs := (faces_of_peeked hp).mpr hmembers
  simp only [Cursor.peek, hp] at hpeek
  split at hpeek
  · rename_i record c₁ hpull
    cases hpeek
    cases record with
    | none =>
      rw [pull_eq_none hpull]
      exact ⟨List.nodup_nil, [], trivial, rfl, List.forall_mem_nil _⟩
    | some r =>
      obtain ⟨members, pre, x, rs', rfl, rfl, hx, -, hrest⟩ := hfaces.pull hp hpull
      refine ⟨List.nodup_nil, x :: rs', hgrouped.of_append, ?_, List.forall_mem_nil _⟩
      rw [Faces, hrest, List.map_cons, hx]
      rfl
  · cases hpeek

end Palmtop.Archive.Cursor
