import Mathlib.Data.List.Nodup
import Mathlib.Data.Fintype.Card
import Palmtop.Device.Slots

/-! # Laws of slots

A map from slots is its list of pairs, so a law about an operation says what becomes of that list.
Three operations matter to a device: a value put over the one at a slot in use
(`values_insert_of_get?`), a value put behind all others (`pairs_insert_next`), and all values moved
to consecutive slots (`pairs_numbered`).  The last two hold as long as the numbers of slots do not
run over.
-/
namespace Palmtop.Slots

variable {α β : Type}

@[simp] theorem values_empty : (empty : Slots α).values = [] := rfl

@[simp] theorem keys_empty : (empty : Slots α).keys = [] := rfl

theorem keys_pairwise (s : Slots α) : s.keys.Pairwise (· < ·) :=
  List.pairwise_map.mpr s.sorted

theorem keys_nodup (s : Slots α) : s.keys.Nodup :=
  s.keys_pairwise.imp fun h he => by
    subst he
    exact absurd h (UInt32.lt_irrefl _)

@[simp] theorem length_keys (s : Slots α) : s.keys.length = s.size := List.length_map ..

@[simp] theorem length_values (s : Slots α) : s.values.length = s.size := List.length_map ..

/-- There are no more slots than numbers for them. -/
theorem size_le (s : Slots α) : s.size ≤ UInt32.size := by
  have hn : (s.keys.map UInt32.toNat).Nodup :=
    s.keys_nodup.map fun _ _ h => UInt32.toNat_inj.mp h
  have hs : s.keys.map UInt32.toNat ⊆ List.range (UInt32.size) := by
    intro n hn
    obtain ⟨k, -, rfl⟩ := List.mem_map.mp hn
    exact List.mem_range.mpr k.toNat_lt
  have hl := (List.subperm_of_subset hn hs).length_le
  rwa [List.length_map, length_keys, List.length_range] at hl

/-! ## Looking up -/

theorem get?_eq_some_iff {s : Slots α} {slot : Slot} {a : α} :
    s.get? slot = some a ↔ (slot, a) ∈ s.pairs := by
  obtain ⟨l, hl⟩ := s
  simp only [get?]
  induction l with
  | nil => simp
  | cons p rest ih =>
    obtain ⟨hp, hr⟩ := List.pairwise_cons.mp hl
    by_cases he : p.1 = slot
    · have hout : (slot, a) ∉ rest := fun hm => by
        have := hp _ hm
        rw [he] at this
        exact absurd this (UInt32.lt_irrefl _)
      obtain ⟨k, b⟩ := p
      simp only at he
      subst he
      simp [hout, eq_comm]
    · have hne : (slot, a) ≠ p := fun h => he (h ▸ rfl)
      simp [he, hne, ih hr]

theorem mem_values_of_get? {s : Slots α} {slot : Slot} {a : α} (h : s.get? slot = some a) :
    a ∈ s.values := List.mem_map_of_mem (f := Prod.snd) (get?_eq_some_iff.mp h)

/-- The values are what is found at the slots, in order. -/
theorem map_get?_keys (s : Slots α) : s.keys.map s.get? = s.values.map some := by
  rw [keys, values, List.map_map, List.map_map]
  exact List.map_congr_left fun p hp => get?_eq_some_iff.mpr hp

theorem findSlot?_eq_some {s : Slots α} {p : α → Bool} {slot : Slot}
    (h : s.findSlot? p = some slot) : ∃ a, s.get? slot = some a ∧ p a = true := by
  obtain ⟨q, hq, rfl⟩ := Option.map_eq_some_iff.mp h
  exact ⟨q.2, get?_eq_some_iff.mpr (List.mem_of_find?_eq_some hq),
    List.find?_some (p := fun q : Slot × α => p q.2) hq⟩

theorem findSlot?_eq_none_iff {s : Slots α} {p : α → Bool} :
    s.findSlot? p = none ↔ ∀ a ∈ s.values, p a = false := by
  simp only [findSlot?, values, Option.map_eq_none_iff, List.find?_eq_none, List.forall_mem_map,
    Bool.not_eq_true]

@[simp] theorem pairs_map (f : α → β) (s : Slots α) :
    (s.map f).pairs = s.pairs.map fun p => (p.1, f p.2) := rfl

@[simp] theorem values_map (f : α → β) (s : Slots α) : (s.map f).values = s.values.map f := by
  simp [values, Function.comp_def]

@[simp] theorem keys_map (f : α → β) (s : Slots α) : (s.map f).keys = s.keys := by
  simp [keys, Function.comp_def]

theorem get?_map_eq_some {f : α → β} {s : Slots α} {slot : Slot} {b : β}
    (h : (s.map f).get? slot = some b) : ∃ a, s.get? slot = some a ∧ f a = b := by
  rw [get?_eq_some_iff, pairs_map] at h
  obtain ⟨p, hp, he⟩ := List.mem_map.mp h
  obtain ⟨h1, h2⟩ := Prod.mk.inj he
  exact ⟨p.2, get?_eq_some_iff.mpr (h1 ▸ hp), h2⟩

/-- Where a key tells the values apart, it tells the slots apart. -/
theorem slot_eq_iff_key_eq {κ : Type} {s : Slots α} {slot : Slot} {old : α}
    (h : s.get? slot = some old) {key : α → κ} (hn : (s.values.map key).Nodup) {p : Slot × α}
    (hp : p ∈ s.pairs) : p.1 = slot ↔ key p.2 = key old := by
  have hm : (slot, old) ∈ s.pairs := get?_eq_some_iff.mp h
  constructor
  · intro he
    have : s.get? slot = some p.2 := get?_eq_some_iff.mpr (he ▸ hp)
    rw [h] at this
    rw [Option.some.inj this]
  · intro he
    rw [values, List.map_map] at hn
    exact congrArg Prod.fst (List.inj_on_of_nodup_map hn hp hm he)

/-! ## A value over another -/

theorem insertPair_of_mem {slot : Slot} {a b : α} {l : List (Slot × α)}
    (hl : l.Pairwise fun x y => x.1 < y.1) (hm : (slot, b) ∈ l) :
    insertPair slot a l = l.map fun p => if p.1 = slot then (slot, a) else p := by
  induction l with
  | nil => cases hm
  | cons p rest ih =>
    obtain ⟨hp, hr⟩ := List.pairwise_cons.mp hl
    rcases List.mem_cons.mp hm with rfl | hm
    · have hrest : rest.map (fun q => if q.1 = slot then (slot, a) else q) = rest := by
        refine List.map_congr_left (g := id) (fun q hq => ?_) |>.trans (List.map_id _)
        have : q.1 ≠ slot := fun he => UInt32.lt_irrefl _ (he ▸ hp q hq)
        simp [this]
      simp [insertPair, hrest]
    · have hlt : p.1 < slot := hp _ hm
      have hnlt : ¬ slot < p.1 := fun h => UInt32.lt_irrefl _ (UInt32.lt_trans h hlt)
      have hne : p.1 ≠ slot := fun he => UInt32.lt_irrefl _ (he ▸ hlt)
      simp [insertPair, hnlt, hne, Ne.symm hne, ih hr hm]

theorem pairs_insert_of_get? {s : Slots α} {slot : Slot} {old : α} (h : s.get? slot = some old)
    (a : α) : (s.insert slot a).pairs = s.pairs.map fun p => if p.1 = slot then (slot, a) else p :=
  insertPair_of_mem s.sorted (get?_eq_some_iff.mp h)

theorem keys_insert_of_get? {s : Slots α} {slot : Slot} {old : α} (h : s.get? slot = some old)
    (a : α) : (s.insert slot a).keys = s.keys := by
  rw [keys, pairs_insert_of_get? h, List.map_map]
  refine List.map_congr_left fun p _ => ?_
  by_cases he : p.1 = slot <;> simp [he]

/-- Where a key tells the values apart, a value put over another takes the place of the value with
that key. -/
theorem values_insert_of_get? {κ : Type} [DecidableEq κ] {s : Slots α} {slot : Slot} {old : α}
    (h : s.get? slot = some old) (a : α) {key : α → κ} (hn : (s.values.map key).Nodup) :
    (s.insert slot a).values = s.values.map fun x => if key x = key old then a else x := by
  rw [values, pairs_insert_of_get? h, values, List.map_map, List.map_map]
  refine List.map_congr_left fun p hp => ?_
  have hiff := slot_eq_iff_key_eq h hn hp
  by_cases he : p.1 = slot
  · simp [he, hiff.mp he]
  · simp [he, mt hiff.mpr he]

/-- A value put over the others of its key leaves the keys as they were. -/
theorem map_key_overwriting {κ : Type} [DecidableEq κ] (key : α → κ) (a : α) (l : List α) :
    (l.map fun x => if key x = key a then a else x).map key = l.map key := by
  rw [List.map_map]
  refine List.map_congr_left fun x _ => ?_
  by_cases hx : key x = key a <;> simp [hx]

/-- Where a key tells the values apart, nothing at a slot means no value with the key of the one
that was there. -/
theorem values_erase_of_get? {κ : Type} [DecidableEq κ] {s : Slots α} {slot : Slot} {old : α}
    (h : s.get? slot = some old) {key : α → κ} (hn : (s.values.map key).Nodup) :
    (s.erase slot).values = s.values.filter fun x => key x ≠ key old := by
  rw [values, erase_pairs, values, List.filter_map]
  congr 1
  refine List.filter_congr fun p hp => ?_
  have hiff := slot_eq_iff_key_eq h hn hp
  simp [bne, Bool.beq_eq_decide_eq, hiff]

/-! ## A value behind all others -/

theorem insertPair_of_lt {slot : Slot} {a : α} {l : List (Slot × α)} (h : ∀ p ∈ l, p.1 < slot) :
    insertPair slot a l = l ++ [(slot, a)] := by
  induction l with
  | nil => rfl
  | cons p rest ih =>
    have hp := h p List.mem_cons_self
    have hnlt : ¬ slot < p.1 := fun hlt => UInt32.lt_irrefl _ (UInt32.lt_trans hlt hp)
    have hne : slot ≠ p.1 := fun he => UInt32.lt_irrefl _ (he ▸ hp)
    simp [insertPair, hnlt, hne, ih fun q hq => h q (List.mem_cons_of_mem _ hq)]

/-- Every slot in use lies before the next one, unless the numbers run over. -/
theorem lt_next {s : Slots α} (h : ∀ k ∈ s.keys, k.toNat + 1 < UInt32.size) :
    ∀ p ∈ s.pairs, p.1 < s.next := by
  intro p hp
  cases hl : s.pairs.getLast? with
  | none =>
    rw [List.getLast?_eq_none_iff] at hl
    rw [hl] at hp
    cases hp
  | some q =>
    have hq : q ∈ s.pairs := List.mem_of_getLast? hl
    have hle : p.1.toNat ≤ q.1.toNat := by
      obtain ⟨front, hf⟩ := List.getLast?_eq_some_iff.mp hl
      have hs := s.sorted
      rw [hf] at hs hp
      rcases List.mem_append.mp hp with hm | hm
      · exact Nat.le_of_lt (UInt32.lt_iff_toNat_lt.mp
          ((List.pairwise_append.mp hs).2.2 p hm q (by simp)))
      · rw [List.mem_singleton.mp hm]
    have hlast := h q.1 (List.mem_map_of_mem hq)
    have hnext : s.next = q.1 + 1 := by simp [next, hl]
    have hsum : (q.1 + 1).toNat = q.1.toNat + 1 := by
      rw [UInt32.toNat_add]
      exact Nat.mod_eq_of_lt hlast
    rw [hnext, UInt32.lt_iff_toNat_lt, hsum]
    omega

theorem pairs_insert_next {s : Slots α} (h : ∀ k ∈ s.keys, k.toNat + 1 < UInt32.size) (a : α) :
    (s.insert s.next a).pairs = s.pairs ++ [(s.next, a)] := insertPair_of_lt (lt_next h)

theorem values_insert_next {s : Slots α} (h : ∀ k ∈ s.keys, k.toNat + 1 < UInt32.size) (a : α) :
    (s.insert s.next a).values = s.values ++ [a] := by
  simp [values, -insert_pairs, pairs_insert_next h]

theorem keys_insert_next {s : Slots α} (h : ∀ k ∈ s.keys, k.toNat + 1 < UInt32.size) (a : α) :
    (s.insert s.next a).keys = s.keys ++ [s.next] := by
  simp [keys, -insert_pairs, pairs_insert_next h]

/-- The next slot is one behind a slot in use, or the first. -/
theorem toNat_next_le (s : Slots α) :
    s.next.toNat = 0 ∨ ∃ k ∈ s.keys, s.next.toNat ≤ k.toNat + 1 := by
  cases hl : s.pairs.getLast? with
  | none => exact Or.inl (by simp [next, hl])
  | some q =>
    refine Or.inr ⟨q.1, List.mem_map_of_mem (List.mem_of_getLast? hl), ?_⟩
    simp only [next, hl, UInt32.toNat_add]
    exact Nat.mod_le _ _

/-- What is put in and what was there before, whether or not something is put over. -/
theorem mem_values_insert {s : Slots α} {slot : Slot} {a b : α} (h : b ∈ (s.insert slot a).values) :
    b = a ∨ b ∈ s.values := by
  obtain ⟨p, hp, rfl⟩ := List.mem_map.mp h
  rcases mem_insertPair hp with rfl | hp
  · exact Or.inl rfl
  · exact Or.inr (List.mem_map_of_mem hp)

/-! ## Consecutive slots -/

theorem mem_values_ofList {l : List (Slot × α)} {b : α} (h : b ∈ (ofList l).values) :
    b ∈ l.map (·.2) := by
  induction l using List.reverseRecOn with
  | nil => exact h
  | append_singleton l p ih =>
    rw [ofList, List.foldl_append] at h
    rw [List.map_append]
    rcases mem_values_insert h with rfl | h
    · exact List.mem_append_right _ List.mem_cons_self
    · exact List.mem_append_left _ (ih h)

/-- Numbering brings in no value, even if the numbers run over. -/
theorem mem_values_numbered {base : Slot} {values : List α} {b : α}
    (h : b ∈ (numbered base values).values) : b ∈ values := by
  obtain ⟨p, hp, rfl⟩ := List.mem_map.mp (mem_values_ofList h)
  obtain ⟨q, hq, rfl⟩ := List.mem_map.mp hp
  exact List.fst_mem_of_mem_zipIdx hq

theorem pairs_foldl_insert (l : List (Slot × α)) (s : Slots α)
    (hl : l.Pairwise fun x y => x.1 < y.1) (hs : ∀ p ∈ s.pairs, ∀ q ∈ l, p.1 < q.1) :
    (l.foldl (fun s p => s.insert p.1 p.2) s).pairs = s.pairs ++ l := by
  induction l generalizing s with
  | nil => simp
  | cons p rest ih =>
    obtain ⟨hp, hr⟩ := List.pairwise_cons.mp hl
    have hins : (s.insert p.1 p.2).pairs = s.pairs ++ [p] :=
      insertPair_of_lt fun q hq => hs q hq p List.mem_cons_self
    rw [List.foldl_cons, ih (s.insert p.1 p.2) hr, hins, List.append_assoc, List.singleton_append]
    intro q hq t ht
    rw [hins] at hq
    rcases List.mem_append.mp hq with hq | hq
    · exact hs q hq t (List.mem_cons_of_mem _ ht)
    · rw [List.mem_singleton.mp hq]
      exact hp t ht

/-- Sorted pairs are the pairs of their map. -/
theorem pairs_ofList {l : List (Slot × α)} (hl : l.Pairwise fun x y => x.1 < y.1) :
    (ofList l).pairs = l := by
  have := pairs_foldl_insert l empty hl (fun p hp => by cases hp)
  simpa [ofList, empty] using this

theorem toNat_add_ofNat {base : Slot} {i n : Nat} (h : base.toNat + n ≤ UInt32.size) (hi : i < n) :
    (base + UInt32.ofNat i).toNat = base.toNat + i := by
  have hlt : base.toNat + i < UInt32.size := by omega
  rw [UInt32.toNat_add, UInt32.toNat_ofNat']
  simp only [UInt32.size] at hlt
  omega

/-- Values at consecutive slots, unless the numbers run over. -/
theorem pairs_numbered {base : Slot} {values : List α}
    (h : base.toNat + values.length ≤ UInt32.size) :
    (numbered base values).pairs
      = values.zipIdx.map fun p => (base + UInt32.ofNat p.2, p.1) := by
  refine pairs_ofList (List.pairwise_map.mpr ?_)
  refine List.Pairwise.imp_of_mem (R := fun x y => x.2 < y.2) (fun {x y} hx hy hlt => ?_) ?_
  · have hx := (List.mem_zipIdx' hx).1
    have hy := (List.mem_zipIdx' hy).1
    rw [UInt32.lt_iff_toNat_lt, toNat_add_ofNat h hx, toNat_add_ofNat h hy]
    omega
  · rw [← List.pairwise_map (f := Prod.snd), List.zipIdx_map_snd]
    exact List.pairwise_lt_range'

theorem values_numbered {base : Slot} {values : List α}
    (h : base.toNat + values.length ≤ UInt32.size) : (numbered base values).values = values := by
  rw [Slots.values, pairs_numbered h, List.map_map]
  exact List.zipIdx_map_fst 0 values

theorem keys_numbered {base : Slot} {values : List α}
    (h : base.toNat + values.length ≤ UInt32.size) :
    ∀ k ∈ (numbered base values).keys,
      base.toNat ≤ k.toNat ∧ k.toNat < base.toNat + values.length := by
  intro k hk
  rw [keys, pairs_numbered h, List.map_map] at hk
  obtain ⟨p, hp, rfl⟩ := List.mem_map.mp hk
  have hi := (List.mem_zipIdx' hp).1
  rw [Function.comp_apply, toNat_add_ofNat h hi]
  omega

end Palmtop.Slots
