import Palmtop.Device.SlotTable
import Palmtop.Proofs.Device.Slots

/-! # Laws of slot tables

A table finds the slot of an id that is in it and of no other (`slotOf?_eq_some`,
`slotOf?_eq_none_iff`).  An id it gives out is the one an unbounded search for a free id ends at
(`allocate_search`), and so neither zero nor in the table (`allocate_fresh`): the ids tried are one
more than the ids that are refused, and as no table has more than `2 ^ 32` ids, they are all
different.
-/
namespace Palmtop.SlotTable

variable {t : SlotTable} {id : UniqueId} {slot : Slot}

theorem slotOf?_eq_some (h : t.slotOf? id = some slot) : t.ids.get? slot = some id := by
  obtain ⟨a, ha, he⟩ := Slots.findSlot?_eq_some h
  rwa [eq_of_beq he] at ha

theorem slotOf?_eq_none_iff : t.slotOf? id = none ↔ id ∉ t.ids.values := by
  rw [slotOf?, Slots.findSlot?_eq_none_iff]
  exact ⟨fun h hm => by simpa using h id hm, fun h a ha => beq_false_of_ne fun he => h (he ▸ ha)⟩

/-! ## Fresh ids -/

/-- The search for an id that is neither zero nor taken, one id after another in cyclic order and
without a bound: behind `last` it looks at `n` ids, the last of which is the first that will do. -/
inductive Search (taken : List UniqueId) : UniqueId → Nat → UniqueId → Prop where
  | found {last : UniqueId} (free : last + 1 ∉ 0 :: taken) : Search taken last 1 (last + 1)
  | passed {last id : UniqueId} {n : Nat} (refused : last + 1 ∈ 0 :: taken)
      (rest : Search taken (last + 1) n id) : Search taken last (n + 1) id

section search
variable {taken : List UniqueId} {last : UniqueId} {n : Nat}

theorem Search.free (h : Search taken last n id) : id ∉ 0 :: taken := by
  induction h with
  | found free => exact free
  | passed _ _ ih => exact ih

theorem Search.pos (h : Search taken last n id) : 0 < n := by
  cases h <;> omega

/-- One step more, counted from the step before. -/
theorem add_ofNat_succ (last : UniqueId) (k : Nat) :
    last + UInt64.ofNat (k + 1) = last + 1 + UInt64.ofNat k := by
  rw [UInt64.ofNat_add, UInt64.add_comm (UInt64.ofNat k), ← UInt64.add_assoc]
  rfl

theorem Search.eq_add (h : Search taken last n id) : id = last + UInt64.ofNat n := by
  induction h with
  | found _ => rfl
  | passed _ _ ih => rw [add_ofNat_succ, ← ih]

/-- If one of the ids tried is good, the search ends, and with the id found. -/
theorem freeAfter_search {tries : Nat} (h : ∃ k ≤ tries, last + 1 + UInt64.ofNat k ∉ 0 :: taken) :
    ∃ n ≤ tries + 1, Search taken last n (freeAfter taken tries last) := by
  induction tries generalizing last with
  | zero =>
    obtain ⟨k, hk, hn⟩ := h
    obtain rfl : k = 0 := by omega
    exact ⟨1, by omega, .found (by simpa using hn)⟩
  | succ tries ih =>
    rw [freeAfter]
    split
    · rename_i hgood
      exact ⟨1, by omega, .found (by simpa using hgood)⟩
    · rename_i hbad
      have hbad : last + 1 ∈ 0 :: taken := by
        by_contra hgood
        exact hbad (by simpa using hgood)
      obtain ⟨k, hk, hn⟩ := h
      cases k with
      | zero => exact absurd hbad (by simpa using hn)
      | succ k =>
        obtain ⟨n, hle, hrest⟩ := ih ⟨k, by omega, by rwa [add_ofNat_succ] at hn⟩
        exact ⟨n + 1, by omega, .passed hbad hrest⟩

end search

/-- Among more different ids than are refused, one is not refused. -/
theorem exists_good (taken : List UniqueId) (last : UniqueId) (h : taken.length + 2 ≤ UInt64.size) :
    ∃ k ≤ taken.length + 1, last + 1 + UInt64.ofNat k ∉ 0 :: taken := by
  by_contra hall
  push Not at hall
  have hsub : (List.range (taken.length + 2)).map (fun k => last + 1 + UInt64.ofNat k)
      ⊆ 0 :: taken := by
    intro u hu
    obtain ⟨k, hk, rfl⟩ := List.mem_map.mp hu
    exact hall k (by have := List.mem_range.mp hk; omega)
  have hn : ((List.range (taken.length + 2)).map fun k => last + 1 + UInt64.ofNat k).Nodup := by
    refine List.Nodup.map_on (fun i hi j hj he => ?_) List.nodup_range
    have hi := List.mem_range.mp hi
    have hj := List.mem_range.mp hj
    have he := congrArg UInt64.toNat ((UInt64.add_right_inj _).mp he)
    rwa [UInt64.toNat_ofNat', UInt64.toNat_ofNat',
      Nat.mod_eq_of_lt (show i < UInt64.size by omega),
      Nat.mod_eq_of_lt (show j < UInt64.size by omega)] at he
  have hl := (List.subperm_of_subset hn hsub).length_le
  simp at hl

/-- One more id is tried than is refused. -/
theorem freeAfter_fresh (taken : List UniqueId) (last : UniqueId)
    (h : taken.length + 2 ≤ UInt64.size) :
    freeAfter taken (taken.length + 1) last ∉ 0 :: taken := by
  obtain ⟨n, -, hsearch⟩ := freeAfter_search (exists_good taken last h)
  exact hsearch.free

/-- The search of a table ends; it looks at no more than two ids more than the table has. -/
theorem allocate_search (t : SlotTable) :
    ∃ n ≤ t.size + 2, Search t.ids.values t.lastNewId n t.allocate.1 := by
  have hsize := t.ids.size_le
  have hlen : t.ids.values.length = t.size := t.ids.length_values
  rw [allocate, ← hlen]
  refine freeAfter_search (exists_good _ _ ?_)
  rw [hlen, size]
  exact Nat.le_trans (Nat.add_le_add_right hsize 2) (by decide)

/-- An id given out is not zero and not in the table. -/
theorem allocate_fresh (t : SlotTable) : t.allocate.1 ≠ 0 ∧ t.allocate.1 ∉ t.ids.values := by
  obtain ⟨n, -, hsearch⟩ := t.allocate_search
  simpa using hsearch.free

@[simp] theorem ids_allocate (t : SlotTable) : t.allocate.2.ids = t.ids := rfl

@[simp] theorem ids_refresh (t fresh : SlotTable) : (t.refresh fresh).ids = fresh.ids := rfl

end Palmtop.SlotTable
