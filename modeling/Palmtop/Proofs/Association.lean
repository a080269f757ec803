import Mathlib.Data.List.Basic

/-! # Association lists

A pair put in front of an association list, in place of the pairs with its key.
-/
namespace Palmtop

variable {κ α : Type} [BEq κ] [LawfulBEq κ]

theorem lookup_filter_of_ne {k a : κ} (h : a ≠ k) (l : List (κ × α)) :
    (l.filter fun p => p.1 != k).lookup a = l.lookup a := by
  induction l with
  | nil => rfl
  | cons p rest ih =>
    obtain ⟨x, v⟩ := p
    by_cases hx : x = k
    · have hne : (a == k) = false := by simpa using h
      simp [hx, List.lookup_cons, hne, ih]
    · simp [hx, List.lookup_cons, ih]

theorem lookup_filter_self (k : κ) (l : List (κ × α)) :
    (l.filter fun p => p.1 != k).lookup k = none := by
  refine List.lookup_eq_none_iff.mpr fun p hp => ?_
  have hne := (List.mem_filter.mp hp).2
  rw [bne_iff_ne] at hne
  exact bne_iff_ne.mpr hne.symm

theorem lookup_cons_filter_self (k : κ) (v : α) (l : List (κ × α)) :
    ((k, v) :: l.filter fun p => p.1 != k).lookup k = some v := by
  rw [List.lookup_cons, beq_self_eq_true]

theorem lookup_cons_filter_of_ne {k a : κ} (h : a ≠ k) (v : α) (l : List (κ × α)) :
    ((k, v) :: l.filter fun p => p.1 != k).lookup a = l.lookup a := by
  have hne : (a == k) = false := by simpa using h
  rw [List.lookup_cons, hne, lookup_filter_of_ne h]

end Palmtop
