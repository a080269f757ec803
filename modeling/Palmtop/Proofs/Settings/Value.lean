import Mathlib.Data.String.Basic
import Palmtop.Settings.Value

/-! # Values laid over one another

Fields are kept in the order of their keys, each key once (`Fields.Sorted`), and every way of making
them keeps them so.  What a table laid over another has at a key then depends on what the two have
at that key and on nothing else (`get?_overlayFields`): the upper value, unless both are tables.
-/
namespace Palmtop.Settings

/-! ## Fields in order -/

namespace Fields

variable {fields : Fields} {key k : String} {value : Value}

/-- The keys of these fields. -/
def keys (fields : Fields) : List String := fields.map Prod.fst

/-- Each key once, in order. -/
def Sorted (fields : Fields) : Prop := fields.keys.Pairwise (· < ·)

theorem sorted_nil : Sorted [] := List.Pairwise.nil

theorem Sorted.nodup (h : fields.Sorted) : fields.keys.Nodup := by
  apply List.Pairwise.imp _ h
  intro a b hab
  exact ne_of_lt hab

theorem get?_cons (p : String × Value) (rest : Fields) :
    get? (p :: rest) k = if k = p.1 then some p.2 else rest.get? k := by
  obtain ⟨key, value⟩ := p
  by_cases h : k = key
  · subst h
    simp [get?]
  · have hne : (k == key) = false := by simpa using h
    simp [get?, List.lookup_cons, hne, h]

theorem get?_eq_none : fields.get? k = none ↔ k ∉ fields.keys := by
  induction fields with
  | nil => simp [get?, keys]
  | cons p rest ih =>
    rw [get?_cons]
    by_cases h : k = p.1
    · simp [h, keys]
    · simp only [h, if_false, ih]
      simp [keys, h]

/-- What was put is found, and everything else is where it was. -/
@[simp] theorem get?_put :
    (put key value fields).get? k = if k = key then some value else fields.get? k := by
  induction fields with
  | nil => rw [put, get?_cons]
  | cons p rest ih =>
    obtain ⟨first, v⟩ := p
    rw [put]
    split
    · rw [get?_cons]
    · split
      · next heq =>
        subst heq
        rw [get?_cons, get?_cons]
        split <;> rfl
      · next hne =>
        rw [get?_cons, ih, get?_cons]
        by_cases hk : k = first
        · have hkey : k ≠ key := fun h => hne (h ▸ hk)
          simp only [hk, if_true]
          rw [if_neg (hk ▸ hkey)]
        · simp only [hk, if_false]

theorem mem_keys_put : k ∈ (put key value fields).keys ↔ k = key ∨ k ∈ fields.keys := by
  rw [← not_iff_not, ← get?_eq_none, get?_put, not_or, ← get?_eq_none]
  split <;> simp_all

theorem Sorted.put (h : fields.Sorted) : (Fields.put key value fields).Sorted := by
  induction fields with
  | nil => simp [Fields.put, Sorted, keys]
  | cons p rest ih =>
    obtain ⟨first, v⟩ := p
    obtain ⟨hfirst, hrest⟩ := List.pairwise_cons.mp h
    rw [Fields.put]
    split
    · next hlt =>
      refine List.pairwise_cons.mpr ⟨fun k hk => ?_, h⟩
      rcases List.mem_cons.mp hk with rfl | hk
      · exact hlt
      · exact lt_trans hlt (hfirst k hk)
    · split
      · next heq =>
        subst heq
        exact h
      · next hge hne =>
        refine List.pairwise_cons.mpr ⟨fun k hk => ?_, ih hrest⟩
        rcases mem_keys_put.mp hk with rfl | hk
        · exact lt_of_le_of_ne (not_lt.mp hge) (Ne.symm hne)
        · exact hfirst k hk

theorem sorted_ofList (l : List (String × Value)) : (ofList l).Sorted := by
  suffices h : ∀ fields : Fields, fields.Sorted →
      (l.foldl (fun fields p => Fields.put p.1 p.2 fields) fields).Sorted from h [] sorted_nil
  induction l with
  | nil => exact fun _ h => h
  | cons p l ih => exact fun _ h => ih _ h.put

end Fields

/-! ## One table over another -/

namespace Value

variable {under above : Fields} {key : String}

/-- Whether a value is a table. -/
def isTable : Value → Bool
  | .table _ => true
  | _ => false

/-- A value is replaced by the one over it, unless both are tables. -/
theorem overlay_of_not_tables {lower upper : Value}
    (h : ¬ (lower.isTable ∧ upper.isTable)) : overlay lower upper = upper := by
  cases upper with
  | table fields =>
    cases lower with
    | table under => simp [isTable] at h
    | null | bool | int | other | text | list => rfl
  | null | bool | int | other | text | list => rfl

/-- What two layers say together of something each may be silent about. -/
def overlay? : Option Value → Option Value → Option Value
  | lower?, none => lower?
  | none, some upper => some upper
  | some lower, some upper => some (overlay lower upper)

/-- The upper layer counts where it says something, unless both say a table. -/
theorem overlay?_of_not_tables {lower? upper? : Option Value}
    (h : ∀ lower ∈ lower?, ∀ upper ∈ upper?, ¬ (lower.isTable ∧ upper.isTable)) :
    overlay? lower? upper? = upper?.orElse fun _ => lower? := by
  cases upper? with
  | none => rfl
  | some upper =>
    cases lower? with
    | none => rfl
    | some lower => exact congrArg some (overlay_of_not_tables (h lower rfl upper rfl))

/-- A merge is key by key. -/
theorem get?_overlayFields (h : above.keys.Nodup) :
    (overlayFields under above).get? key = overlay? (under.get? key) (above.get? key) := by
  induction above generalizing under with
  | nil => rw [overlayFields]; rfl
  | cons p rest ih =>
    obtain ⟨first, value⟩ := p
    obtain ⟨hfirst, hrest⟩ := List.nodup_cons.mp h
    rw [overlayFields, ih hrest, Fields.get?_put, Fields.get?_cons]
    by_cases hkey : key = first
    · subst hkey
      rw [if_pos rfl, if_pos rfl, Fields.get?_eq_none.mpr hfirst]
      cases under.get? key <;> rfl
    · rw [if_neg hkey, if_neg hkey]

theorem sorted_overlayFields (h : under.Sorted) : (overlayFields under above).Sorted := by
  induction above generalizing under with
  | nil => rwa [overlayFields]
  | cons p rest ih =>
    obtain ⟨first, value⟩ := p
    rw [overlayFields]
    exact ih h.put

/-! ## Typed readings -/

variable {v : Value}

theorem text?_eq_some {s : String} : v.text? = some s ↔ v = .text s := by
  cases v <;> simp [text?]

theorem word?_eq_some {w : UInt64} : v.word? = some w ↔ v = .int w.toNat := by
  cases v with
  | int n =>
    simp only [word?, Option.ite_none_right_eq_some, Option.some.injEq, int.injEq]
    constructor
    · rintro ⟨⟨hpos, hlt⟩, rfl⟩
      rw [UInt64.toNat_ofNat_of_lt' (by omega)]
      omega
    · rintro rfl
      have hlt := w.toNat_lt_size
      refine ⟨⟨by omega, by omega⟩, ?_⟩
      rw [Int.toNat_natCast, UInt64.ofNat_toNat]
  | null | bool | other | text | list | table => simp [word?]

theorem mapM_text? {items : List Value} {l : List String} :
    items.mapM text? = some l ↔ items = l.map .text := by
  induction items generalizing l with
  | nil => cases l <;> simp
  | cons item items ih =>
    simp only [List.mapM_cons, Option.bind_eq_bind, Option.bind_eq_some_iff, text?_eq_some, ih,
      Option.pure_def, Option.some.injEq]
    constructor
    · rintro ⟨s, rfl, rest, rfl, rfl⟩
      rfl
    · intro h
      cases l with
      | nil => cases h
      | cons s rest =>
        obtain ⟨rfl, rfl⟩ := List.cons.inj h
        exact ⟨s, rfl, rest, rfl, rfl⟩

theorem texts?_eq_some {l : List String} : v.texts? = some l ↔ v = .list (l.map .text) := by
  cases v with
  | list items => simp [texts?, mapM_text?]
  | null | bool | int | other | text | table => simp [texts?]

/-- How a choice is written: its name, or a table of nothing under its name. -/
def Names (v : Value) (choice : String) : Prop :=
  v = .text choice ∨ ∃ rest, v = .table ((choice, .null) :: rest)

theorem choice?_eq_some {choice : String} : v.choice? = some choice ↔ v.Names choice := by
  unfold choice? Names
  split
  · simp
  · next key rest =>
    constructor
    · rintro ⟨⟩
      exact .inr ⟨rest, rfl⟩
    · rintro (h | ⟨rest', h⟩)
      · cases h
      · cases h
        rfl
  · next htext htable =>
    constructor
    · intro h
      cases h
    · rintro (rfl | ⟨rest, rfl⟩)
      · exact absurd rfl (htext choice)
      · exact absurd rfl (htable choice rest)

end Value

end Palmtop.Settings
