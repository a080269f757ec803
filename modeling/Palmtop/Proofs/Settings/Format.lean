import Mathlib.Data.List.Induction
import Palmtop.Proofs.Settings.Value
import Palmtop.Settings.Layers

/-! # Tables that are read

Whatever format the fields of a file come in, and whatever variables the fields of the environment,
they are sorted.  Two of the formats put the fields together at the very end; a JSON object may be
the value the scan ends with, which is why what a scan gives has to be followed through it
(`Scan.Gives`).
-/
namespace Palmtop.Settings

/-! ## What a scan gives -/

namespace Scan

variable {α β : Type} {P : α → Prop}

/-- Whatever the scan gives, from whatever text, has the property. -/
def Gives (s : Scan α) (P : α → Prop) : Prop := ∀ cs a rest, s cs = some (a, rest) → P a

theorem gives_pure {a : α} (h : P a) : Gives (pure a) P := by
  intro cs b rest hrun
  cases hrun
  exact h

theorem gives_failure : Gives failure P := by
  intro cs a rest hrun
  cases hrun

theorem Gives.bind {Q : β → Prop} {s : Scan β} {f : β → Scan α} (hs : Gives s Q)
    (hf : ∀ b, Q b → Gives (f b) P) : Gives (s >>= f) P := by
  intro cs a rest hrun
  have hbind : (s >>= f) cs = (s cs).bind fun p => f p.1 p.2 := rfl
  rw [hbind, Option.bind_eq_some_iff] at hrun
  obtain ⟨⟨b, later⟩, hfirst, hlast⟩ := hrun
  exact hf b (hs cs b later hfirst) later a rest hlast

/-- What comes last decides. -/
theorem gives_bind {s : Scan β} {f : β → Scan α} (h : ∀ b, Gives (f b) P) : Gives (s >>= f) P :=
  Gives.bind (Q := fun _ => True) (fun _ _ _ _ => trivial) fun b _ => h b

theorem gives_ite {c : Prop} [Decidable c] {s t : Scan α} (hs : Gives s P) (ht : Gives t P) :
    Gives (if c then s else t) P := by
  split
  · exact hs
  · exact ht

theorem Gives.of_runAll {s : Scan α} {text : String} {a : α} (h : Gives s P)
    (hrun : runAll s text = some a) : P a := by
  unfold runAll at hrun
  split at hrun
  · next heq =>
    cases hrun
    exact h _ _ _ heq
  · cases hrun

end Scan

/-! ## Files -/

/-- A table among values is sorted. -/
def Value.Ordered (v : Value) : Prop := ∀ fields : Fields, v = .table fields → fields.Sorted

theorem Value.ordered_of_not_isTable {v : Value} (h : v.isTable = false) : v.Ordered := by
  rintro fields rfl
  cases h

namespace Json

open Scan

theorem isTable_integer (negative : Bool) (n : Nat) : (integer negative n).isTable = false := by
  unfold integer
  repeat' split
  all_goals rfl

theorem ordered_number : Gives number Value.Ordered := by
  unfold number
  repeat' refine gives_bind fun _ => ?_
  apply gives_pure
  split
  · exact Value.ordered_of_not_isTable (isTable_integer _ _)
  · exact Value.ordered_of_not_isTable rfl

theorem ordered_value (fuel depth : Nat) : Gives (value fuel depth) Value.Ordered := by
  cases fuel with
  | zero => exact gives_failure
  | succ fuel =>
    have scalar {v : Value} (h : v.isTable = false) : Gives (pure v) Value.Ordered :=
      gives_pure (Value.ordered_of_not_isTable h)
    have table {fields : Fields} (h : fields.Sorted) :
        Gives (pure (Value.table fields)) Value.Ordered := by
      apply gives_pure
      rintro other ⟨⟩
      exact h
    unfold value
    repeat' first
      | exact ordered_number
      | refine gives_bind fun _ => ?_
      | apply gives_ite
    · exact scalar rfl
    · exact scalar rfl
    · exact scalar rfl
    · exact scalar rfl
    · exact scalar rfl
    · exact scalar rfl
    · exact table Fields.sorted_nil
    · exact table (Fields.sorted_ofList _)

theorem sorted_parse? {text : String} {fields : Fields} (h : parse? text = some fields) :
    fields.Sorted := by
  have hdocument (fuel : Nat) : Gives (document fuel) Value.Ordered :=
    (ordered_value fuel maxDepth).bind fun _ hv => gives_bind fun _ => gives_pure hv
  unfold parse? at h
  split at h
  · next fields' hrun =>
    cases h
    exact (hdocument _).of_runAll hrun fields rfl
  · cases h

end Json

theorem Toml.sorted_finished (nodes : Toml.Nodes) : (Toml.finished nodes).Sorted := by
  induction nodes with
  | nil => rw [Toml.finished]; exact Fields.sorted_nil
  | cons p rest ih =>
    obtain ⟨key, node⟩ := p
    rw [Toml.finished]
    exact ih.put

theorem Toml.sorted_parse? {text : String} {fields : Fields} (h : Toml.parse? text = some fields) :
    fields.Sorted := by
  obtain ⟨draft, -, rfl⟩ := Option.map_eq_some_iff.mp h
  exact Toml.sorted_finished draft.root

theorem Yaml.sorted_fields? {node : Yaml.Node} {fields : Fields} (h : node.fields? = some fields) :
    fields.Sorted := by
  cases node with
  | scalar tag plain text =>
    simp only [Yaml.Node.fields?] at h
    split at h
    · cases h
      exact Fields.sorted_nil
    · cases h
  | list => cases h
  | table tag nodes =>
    obtain ⟨l, -, rfl⟩ := Option.map_eq_some_iff.mp h
    exact Fields.sorted_ofList l

theorem Yaml.sorted_parse? {text : String} {fields : Fields} (h : Yaml.parse? text = some fields) :
    fields.Sorted := by
  simp only [Yaml.parse?, Option.bind_eq_bind, Option.bind_eq_some_iff] at h
  obtain ⟨tokens, -, ⟨root, draft⟩, -, hfields⟩ := h
  exact Yaml.sorted_fields? hfields

theorem Format.sorted_parse? {format : Format} {text : String} {fields : Fields}
    (h : format.parse? text = some fields) : fields.Sorted := by
  cases format with
  | toml => exact Toml.sorted_parse? h
  | yaml => exact Yaml.sorted_parse? h
  | json => exact Json.sorted_parse? h

theorem sorted_readFile {files : Files} {path : Path} {fields : Fields}
    (h : readFile files path = .ok fields) : fields.Sorted := by
  unfold readFile at h
  split at h
  · cases h
  · split at h
    · split at h
      · next hparse =>
        cases h
        obtain ⟨text, -, htext⟩ := Option.bind_eq_some_iff.mp hparse
        exact Format.sorted_parse? htext
      · cases h
    · cases h
    · cases h

/-- The fields of a file are sorted, and so are those of no file. -/
theorem Surroundings.sorted_fileFields {s : Surroundings} {path? : Option Path} {fields : Fields}
    (h : s.fileFields path? = .ok fields) : fields.Sorted := by
  unfold Surroundings.fileFields at h
  split at h
  · exact sorted_readFile h
  · split at h
    · exact sorted_readFile h
    · cases h
      exact Fields.sorted_nil

/-! ## Variables -/

namespace Variables

/-- What a variable has for a key, inside the tables a dotted name stands for. -/
def given? (key : String) (v : String × String) : Option Value :=
  match path? v.1 with
  | some (first :: path) => if key = first then some (nest (read v.2) path) else none
  | _ => none

/-- What the last variable for this key has for it. -/
def last? (environment : Variables) (key : String) : Option Value :=
  environment.reverse.findSome? (given? key)

theorem fields_concat (environment : Variables) (v : String × String) :
    fields (environment ++ [v]) = match path? v.1 with
      | some (first :: path) =>
        Value.overlayFields environment.fields [(first, nest (read v.2) path)]
      | _ => environment.fields := by
  rw [fields, List.foldl_append]
  rfl

/-- One more variable is laid over those before it. -/
theorem get?_fields_concat (environment : Variables) (v : String × String) (key : String) :
    (fields (environment ++ [v])).get? key =
      Value.overlay? (environment.fields.get? key) (given? key v) := by
  rw [fields_concat, given?]
  split
  · next first path _ =>
    rw [Value.get?_overlayFields (by simp [Fields.keys]), Fields.get?_cons]
    rfl
  · rfl

theorem sorted_fields (environment : Variables) : environment.fields.Sorted := by
  induction environment using List.reverseRecOn with
  | nil => exact Fields.sorted_nil
  | append_singleton environment v ih =>
    rw [fields_concat]
    split
    · exact Value.sorted_overlayFields ih
    · exact ih

/-- No two variables have a table for this key. -/
def Separate (environment : Variables) (key : String) : Prop :=
  environment.Pairwise fun v w =>
    ∀ lower ∈ given? key v, ∀ upper ∈ given? key w, ¬ (lower.isTable ∧ upper.isTable)

/-- Of variables for one key the last counts. -/
theorem get?_fields {environment : Variables} {key : String} (h : environment.Separate key) :
    environment.fields.get? key = environment.last? key := by
  induction environment using List.reverseRecOn with
  | nil => rfl
  | append_singleton environment v ih =>
    obtain ⟨hbefore, -, hv⟩ := List.pairwise_append.mp h
    rw [get?_fields_concat, ih hbefore, last?, last?, List.reverse_append, List.reverse_singleton,
      List.singleton_append, List.findSome?_cons, Value.overlay?_of_not_tables]
    · cases given? key v <;> rfl
    · intro lower hlower upper hupper
      obtain ⟨w, hw, hgiven⟩ := List.exists_of_findSome?_eq_some hlower
      exact hv w (List.mem_reverse.mp hw) v List.mem_cons_self lower hgiven upper hupper

end Variables

end Palmtop.Settings
