/-! # Slots

A device addresses the records of a database by slot, a number it may change after any mutation.
`Slots α` is a finite map from slots, held as its pairs in slot order; the order is part of the
type, so the list of pairs is a canonical form of the map.

`mem_insertPair`, `insert_pairs` and `erase_pairs` say what the operations do to the pairs.
-/
namespace Palmtop

/-- The volatile number by which a device addresses a record. -/
abbrev Slot := UInt32

/-- A finite map from slots, as its pairs in increasing slot order. -/
structure Slots (α : Type) where
  pairs : List (Slot × α)
  sorted : pairs.Pairwise fun a b => a.1 < b.1
  deriving DecidableEq

namespace Slots

variable {α β : Type}

/-- No slot is in use. -/
def empty : Slots α := ⟨[], .nil⟩

/-- The number of slots in use. -/
def size (s : Slots α) : Nat := s.pairs.length

/-- The slots in use, in order. -/
def keys (s : Slots α) : List Slot := s.pairs.map (·.1)

/-- The values, in slot order. -/
def values (s : Slots α) : List α := s.pairs.map (·.2)

/-- The value at `slot`. -/
def get? (s : Slots α) (slot : Slot) : Option α :=
  (s.pairs.find? fun p => p.1 == slot).map (·.2)

/-- The first slot whose value satisfies `p`. -/
def findSlot? (s : Slots α) (p : α → Bool) : Option Slot :=
  (s.pairs.find? fun q => p q.2).map (·.1)

/-- A pair put at its place in sorted pairs, over a pair of the same slot. -/
def insertPair (slot : Slot) (a : α) : List (Slot × α) → List (Slot × α)
  | [] => [(slot, a)]
  | p :: rest =>
    if slot < p.1 then (slot, a) :: p :: rest
    else if slot = p.1 then (slot, a) :: rest
    else p :: insertPair slot a rest

theorem mem_insertPair {slot : Slot} {a : α} {l : List (Slot × α)} {q : Slot × α}
    (h : q ∈ insertPair slot a l) : q = (slot, a) ∨ q ∈ l := by
  induction l with
  | nil => simpa [insertPair] using h
  | cons p rest ih =>
    simp only [insertPair] at h
    split at h
    · simpa using h
    · split at h <;> simp only [List.mem_cons] at h ⊢ <;> grind

theorem pairwise_insertPair {slot : Slot} {a : α} {l : List (Slot × α)}
    (h : l.Pairwise fun x y => x.1 < y.1) :
    (insertPair slot a l).Pairwise fun x y => x.1 < y.1 := by
  induction l with
  | nil => simp [insertPair]
  | cons p rest ih =>
    obtain ⟨hp, hr⟩ := List.pairwise_cons.mp h
    simp only [insertPair]
    split
    · rename_i hlt
      refine List.pairwise_cons.mpr ⟨?_, h⟩
      intro q hq
      rcases List.mem_cons.mp hq with rfl | hq
      · exact hlt
      · exact UInt32.lt_trans hlt (hp q hq)
    · split
      · rename_i heq
        exact List.pairwise_cons.mpr ⟨fun q hq => heq ▸ hp q hq, hr⟩
      · rename_i hn hne
        refine List.pairwise_cons.mpr ⟨?_, ih hr⟩
        intro q hq
        rcases mem_insertPair hq with rfl | hq
        · simp only [UInt32.lt_iff_toNat_lt, ← UInt32.toNat_inj] at hn hne ⊢
          omega
        · exact hp q hq

/-- The map with `a` at `slot`. -/
def insert (s : Slots α) (slot : Slot) (a : α) : Slots α :=
  ⟨insertPair slot a s.pairs, pairwise_insertPair s.sorted⟩

@[simp] theorem insert_pairs (s : Slots α) (slot : Slot) (a : α) :
    (s.insert slot a).pairs = insertPair slot a s.pairs := rfl

/-- The map with nothing at `slot`. -/
def erase (s : Slots α) (slot : Slot) : Slots α :=
  ⟨s.pairs.filter fun p => p.1 != slot, s.sorted.filter _⟩

@[simp] theorem erase_pairs (s : Slots α) (slot : Slot) :
    (s.erase slot).pairs = s.pairs.filter fun p => p.1 != slot := rfl

/-- The values changed, the slots kept. -/
def map (f : α → β) (s : Slots α) : Slots β :=
  ⟨s.pairs.map fun p => (p.1, f p.2), List.pairwise_map.mpr s.sorted⟩

/-- The map of these pairs; of two pairs with one slot the later counts. -/
def ofList (l : List (Slot × α)) : Slots α :=
  l.foldl (fun s p => s.insert p.1 p.2) empty

/-- The slot after the last one in use. -/
def next (s : Slots α) : Slot :=
  match s.pairs.getLast? with
  | some p => p.1 + 1
  | none => 0

/-- These values at the slots `base`, `base + 1`, and so on. -/
def numbered (base : Slot) (values : List α) : Slots α :=
  ofList (values.zipIdx.map fun p => (base + UInt32.ofNat p.2, p.1))

end Slots

end Palmtop
