import Mathlib.Algebra.Group.Nat.Defs
import Palmtop.Proofs.Device.SlotTable

/-! # Giving out ids

A table is asked for ids for new records and, in between, takes over the ids of tables fetched anew
(`Call`).  How far the search for an id goes is a number of ids looked at, counted upwards from the
id given out last and, behind the largest, on from zero (`looks`); the least of them is what comes
first in cyclic order.

Each search ends, at the free id that takes the fewest looks (`Search.eq_iff`).  The looks of a
whole run add up (`travel`), and as long as they do not take the allocator past the largest id, the
ids given out only grow (`pairwise_of_travel`), whatever tables are fetched in between.
-/
namespace Palmtop.SlotTable

variable {taken : List UniqueId} {last id : UniqueId} {n : Nat}

/-! ## Looks -/

/-- How many ids are looked at from `last` on until `id` is, which is the last of them. -/
def looks (last id : UniqueId) : Nat := (id - (last + 1)).toNat + 1

theorem add_looks (last id : UniqueId) : last + UInt64.ofNat (looks last id) = id := by
  rw [looks, add_ofNat_succ, UInt64.ofNat_toNat, UInt64.add_comm, UInt64.sub_add_cancel]

theorem looks_add {k : Nat} (hpos : 0 < k) (hle : k ≤ UInt64.size) :
    looks last (last + UInt64.ofNat k) = k := by
  obtain ⟨k, rfl⟩ := Nat.exists_eq_succ_of_ne_zero (Nat.ne_of_gt hpos)
  have hlt : k < 2 ^ 64 := hle
  rw [looks, Nat.succ_eq_add_one, add_ofNat_succ, UInt64.add_comm, UInt64.add_sub_cancel,
    UInt64.toNat_ofNat', Nat.mod_eq_of_lt hlt]

theorem looks_le (last id : UniqueId) : looks last id ≤ UInt64.size := (id - (last + 1)).toNat_lt

/-- As long as the largest id is not passed, looks are counted by the ids themselves. -/
theorem toNat_eq_add_looks (h : last.toNat + looks last id < UInt64.size) :
    id.toNat = last.toNat + looks last id := by
  have hsum := congrArg UInt64.toNat (add_looks last id)
  have hlooks : looks last id < 2 ^ 64 := Nat.lt_of_le_of_lt (Nat.le_add_left _ _) h
  rw [UInt64.toNat_add, UInt64.toNat_ofNat', Nat.mod_eq_of_lt hlooks, Nat.mod_eq_of_lt h] at hsum
  exact hsum.symm

/-! ## One search -/

/-- Everything the search passed is refused. -/
theorem Search.refused (h : Search taken last n id) {k : Nat} (hpos : 0 < k) (hlt : k < n) :
    last + UInt64.ofNat k ∈ 0 :: taken := by
  induction h generalizing k with
  | found _ => omega
  | passed refused _ ih =>
    obtain ⟨k, rfl⟩ := Nat.exists_eq_succ_of_ne_zero (Nat.ne_of_gt hpos)
    rw [Nat.succ_eq_add_one, add_ofNat_succ]
    cases k with
    | zero => simpa using refused
    | succ k => exact ih (by omega) (by omega)

/-- What is free has not been passed. -/
theorem Search.le_looks (h : Search taken last n id) {other : UniqueId}
    (hfree : other ∉ 0 :: taken) : n ≤ looks last other := by
  by_contra hlt
  have hrefused := h.refused (k := looks last other) (Nat.succ_pos _) (by omega)
  rw [add_looks] at hrefused
  exact hfree hrefused

theorem Search.eq_looks (h : Search taken last n id) : n = looks last id := by
  have hle : n ≤ UInt64.size := Nat.le_trans (h.le_looks h.free) (looks_le last id)
  have hlooks : looks last (last + UInt64.ofNat n) = n := looks_add h.pos hle
  rw [← h.eq_add] at hlooks
  exact hlooks.symm

/-- There is one way for a search to end. -/
theorem Search.eq_iff (h : Search taken last n id) {m : Nat} {other : UniqueId} :
    Search taken last m other ↔ m = n ∧ other = id := by
  constructor
  · intro h'
    have hn : m = n := Nat.le_antisymm
      (h.eq_looks ▸ h'.le_looks h.free) (h'.eq_looks ▸ h.le_looks h'.free)
    exact ⟨hn, by rw [h'.eq_add, h.eq_add, hn]⟩
  · rintro ⟨rfl, rfl⟩
    exact h

theorem looks_allocate_le (t : SlotTable) : looks t.lastNewId t.allocate.1 ≤ t.size + 2 := by
  obtain ⟨n, hle, hsearch⟩ := t.allocate_search
  exact hsearch.eq_looks ▸ hle

/-! ## Runs -/

/-- What a table is asked for: an id for a new record, or to take over the ids of another table. -/
inductive Call where
  | allocate
  | refresh (fresh : SlotTable)

/-- The table after a call. -/
def call (t : SlotTable) : Call → SlotTable
  | .allocate => t.allocate.2
  | .refresh fresh => t.refresh fresh

/-- The table after these calls. -/
def after (t : SlotTable) (calls : List Call) : SlotTable := calls.foldl call t

/-- The ids given out on these calls, in order. -/
def handedOut : List Call → SlotTable → List UniqueId
  | [], _ => []
  | .allocate :: calls, t => t.allocate.1 :: handedOut calls t.allocate.2
  | .refresh fresh :: calls, t => handedOut calls (t.refresh fresh)

/-- How many ids are looked at from `last` on to find these, one after another. -/
def travel : UniqueId → List UniqueId → Nat
  | _, [] => 0
  | last, id :: ids => looks last id + travel id ids

theorem travel_concat (last : UniqueId) (ids : List UniqueId) (id : UniqueId) :
    travel last (ids ++ [id]) = travel last ids + looks (ids.getLastD last) id := by
  induction ids generalizing last with
  | nil => exact Nat.add_comm _ _
  | cons first ids ih =>
    rw [List.cons_append, travel, ih, travel, List.getLastD_cons, Nat.add_assoc]

/-- The allocator stands at the id given out last; no refresh moves it. -/
theorem lastNewId_after (t : SlotTable) (calls : List Call) :
    (t.after calls).lastNewId = (handedOut calls t).getLastD t.lastNewId := by
  induction calls generalizing t with
  | nil => rfl
  | cons c calls ih =>
    rw [after, List.foldl_cons]
    cases c with
    | allocate =>
      rw [handedOut, List.getLastD_cons]
      exact ih t.allocate.2
    | refresh fresh => exact ih (t.refresh fresh)

/-- Ids found without passing the largest one only grow. -/
theorem pairwise_of_travel {ids : List UniqueId}
    (h : last.toNat + travel last ids < UInt64.size) : (last :: ids).Pairwise (· < ·) := by
  induction ids generalizing last with
  | nil => exact List.pairwise_singleton _ _
  | cons id ids ih =>
    rw [travel] at h
    have hid : id.toNat = last.toNat + looks last id := toNat_eq_add_looks (by omega)
    have hrest : (id :: ids).Pairwise (· < ·) := ih (by omega)
    have hlt : last < id := by
      have : 0 < looks last id := Nat.succ_pos _
      rw [UInt64.lt_iff_toNat_lt]
      omega
    refine List.pairwise_cons.mpr ⟨fun other hother => ?_, hrest⟩
    rcases List.mem_cons.mp hother with rfl | hother
    · exact hlt
    · exact UInt64.lt_trans hlt ((List.pairwise_cons.mp hrest).1 other hother)

/-- What a table that has given out `last` does when it is asked for an id: it searches without a
bound and comes to an end, at the first id behind `last` in cyclic order that is neither zero nor in
the table, and nothing changes but that this is now the id given out last. -/
structure Allocates (t : SlotTable) (last : UniqueId) : Prop where
  ends : ∃ n ≤ t.size + 2, ∀ m id, Search t.ids.values last m id ↔ m = n ∧ id = t.allocate.1
  nonzero : t.allocate.1 ≠ 0
  free : t.allocate.1 ∉ t.ids.values
  least : ∀ id, id ≠ 0 → id ∉ t.ids.values → looks last t.allocate.1 ≤ looks last id
  kept : t.allocate.2 = { t with lastNewId := t.allocate.1 }

theorem allocates (t : SlotTable) : t.Allocates t.lastNewId := by
  obtain ⟨n, hle, hsearch⟩ := t.allocate_search
  obtain ⟨hnonzero, hfree⟩ := t.allocate_fresh
  refine ⟨⟨n, hle, fun m id => hsearch.eq_iff⟩, hnonzero, hfree, fun id hid hnew => ?_, rfl⟩
  rw [← hsearch.eq_looks]
  exact hsearch.le_looks (by simp [hid, hnew])

/-- **Ids are given out in order.**  Whatever a table is asked for, one call after another: every
search for an id ends, at the least free id, in cyclic order, behind the one given out last; taking
over the ids of a table fetched anew changes nothing but the ids.  As long as the searches have not
taken the allocator past the largest id, each id given out is greater than all before it, and none
is given out twice. -/
theorem handedOut_inOrder (t : SlotTable) (calls : List Call) :
    (∀ before rest, calls = before ++ .allocate :: rest →
      (t.after before).Allocates ((handedOut before t).getLastD t.lastNewId)) ∧
    (∀ before fresh rest, calls = before ++ .refresh fresh :: rest →
      t.after (before ++ [.refresh fresh]) = { t.after before with ids := fresh.ids }) ∧
    (t.lastNewId.toNat + travel t.lastNewId (handedOut calls t) < 2 ^ 64 →
      (t.lastNewId :: handedOut calls t).Pairwise (· < ·) ∧ (handedOut calls t).Nodup) := by
  refine ⟨fun before rest _ => ?_, fun before fresh rest _ => ?_, fun hshort => ?_⟩
  · rw [← lastNewId_after]
    exact (t.after before).allocates
  · rw [after, List.foldl_append]
    rfl
  · have hgrow := pairwise_of_travel hshort
    exact ⟨hgrow, (List.pairwise_cons.mp hgrow).2.imp UInt64.ne_of_lt⟩

/-- Two ids are left above the one given out last, and a table is fetched between them; the third id
is found behind zero, where that of a record is passed over. -/
theorem handedOut_aroundZero :
    let t : SlotTable := { ids := Slots.ofList [(0, 1)], lastNewId := 18446744073709551613 }
    let fresh := SlotTable.ofList [(0, 1), (1, 18446744073709551614)]
    let calls := [.allocate, .refresh fresh, .allocate]
    handedOut (calls ++ [.allocate]) t = [18446744073709551614, 18446744073709551615, 2] ∧
      (t.lastNewId :: handedOut calls t).Pairwise (· < ·) ∧
      (t.after calls).Allocates 18446744073709551615 := by
  intro t fresh calls
  have hlast : (handedOut calls t).getLastD t.lastNewId = 18446744073709551615 := by
    decide +kernel
  obtain ⟨hallocates, -, -⟩ := handedOut_inOrder t (calls ++ [.allocate])
  obtain ⟨-, -, hgrow⟩ := handedOut_inOrder t calls
  exact ⟨by decide +kernel, (hgrow (by decide +kernel)).1, hlast ▸ hallocates calls [] rfl⟩

end Palmtop.SlotTable
