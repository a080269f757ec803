import Mathlib.Data.List.Basic
import Palmtop.Files

/-! # Laws of paths

A proper file name put behind a directory is one more component of the path (`components_join`) and
lies in that directory (`resolve_join`).
-/
namespace Palmtop

variable {sep : Char} {cs : List Char} {name : String}

namespace Path

/-! ## Components -/

theorem splitOnChar_ne_nil (sep : Char) (cs : List Char) : splitOnChar sep cs ≠ [] := by
  cases cs with
  | nil => exact List.cons_ne_nil _ _
  | cons c cs =>
    rw [splitOnChar]
    split
    · exact List.cons_ne_nil _ _
    · split <;> exact List.cons_ne_nil _ _

/-- What stands before and behind a separator is split on its own. -/
theorem splitOnChar_append (sep : Char) (cs rest : List Char) :
    splitOnChar sep (cs ++ sep :: rest) = splitOnChar sep cs ++ splitOnChar sep rest := by
  induction cs with
  | nil => simp [splitOnChar]
  | cons c cs ih =>
    rw [List.cons_append, splitOnChar, splitOnChar, ih]
    split
    · rfl
    · obtain ⟨part, parts, hparts⟩ := List.exists_cons_of_ne_nil (splitOnChar_ne_nil sep cs)
      rw [hparts]
      rfl

theorem splitOnChar_of_notMem (h : sep ∉ cs) : splitOnChar sep cs = [cs] := by
  induction cs with
  | nil => rfl
  | cons c cs ih =>
    rw [List.mem_cons, not_or] at h
    rw [splitOnChar, if_neg (Ne.symm h.1), ih h.2]

/-- A name that counts as a component and is not the parent directory. -/
structure Proper (name : String) : Prop where
  ne_empty : name ≠ ""
  ne_dot : name ≠ "."
  ne_up : name ≠ ".."
  slash_notMem : '/' ∉ name.toList

theorem components_name (h : Proper name) : components ⟨name⟩ = [name] := by
  simp [components, splitOnChar_of_notMem h.slash_notMem, h.ne_empty, h.ne_dot]

/-- The components before and behind a slash. -/
theorem components_slash (dir rest : String) :
    components ⟨dir ++ "/" ++ rest⟩ = components ⟨dir⟩ ++ components ⟨rest⟩ := by
  simp [components, splitOnChar_append]

theorem eq_of_isEmpty {p : Path} (h : p.text.isEmpty = true) : p = ⟨""⟩ :=
  congrArg Path.mk (String.isEmpty_iff.mp h)

theorem exists_of_endsWithSlash {p : Path} (h : p.endsWithSlash = true) :
    ∃ dir, p.text = dir ++ "/" := by
  have hlast : p.text.toList.getLast? = some '/' := by simpa [endsWithSlash] using h
  obtain ⟨cs, hcs⟩ := List.getLast?_eq_some_iff.mp hlast
  refine ⟨String.ofList cs, String.toList_injective ?_⟩
  simpa using hcs

/-- A proper name behind a directory is one more component. -/
theorem components_join (p : Path) (h : Proper name) :
    (p.join name).components = p.components ++ [name] := by
  unfold join
  split
  · rename_i hempty
    rw [components_name h, eq_of_isEmpty hempty]
    rfl
  split
  · rename_i hslash
    obtain ⟨dir, hdir⟩ := exists_of_endsWithSlash hslash
    -- the slash is there already; behind it the directory has an empty part, which does not count
    have hp : p.components = components ⟨dir⟩ := by
      have hsplit := components_slash dir ""
      rw [String.append_empty, ← hdir] at hsplit
      exact hsplit.trans (List.append_nil _)
    rw [hdir, components_slash, components_name h, hp]
  · rw [components_slash, components_name h]

theorem isAbsolute_join (p : Path) (h : Proper name) : (p.join name).isAbsolute = p.isAbsolute := by
  unfold join
  split
  · rename_i hempty
    have hhead : name.toList.head? ≠ some '/' := fun he => h.slash_notMem (List.mem_of_mem_head? he)
    rw [eq_of_isEmpty hempty]
    simpa [isAbsolute] using hhead
  · rename_i hempty
    have hhead (rest : List Char) : (p.text.toList ++ rest).head? = p.text.toList.head? := by
      rw [List.head?_append_of_ne_nil]
      simpa [String.isEmpty_iff] using hempty
    split <;> simp [isAbsolute, hhead]

/-- Different names make different paths. -/
theorem join_inj {p : Path} {other : String} : p.join name = p.join other ↔ name = other := by
  refine ⟨fun h => ?_, fun h => h ▸ rfl⟩
  unfold join at h
  split at h
  · exact congrArg Path.text h
  split at h <;>
  · have htext := congrArg (fun q => q.text.toList) h
    simp only [String.toList_append, List.append_cancel_left_eq] at htext
    exact String.toList_injective htext

/-! ## Extensions -/

theorem fileName?_join (p : Path) (h : Proper name) : (p.join name).fileName? = some name := by
  simp [fileName?, components_join p h, h.ne_up]

/-- The extension is what follows the last dot, which is not the first character. -/
theorem splitExtension_append {stem ext : List Char} (hstem : stem ≠ []) (hext : '.' ∉ ext) :
    splitExtension (stem ++ '.' :: ext) = (stem, some ext) := by
  have hreverse : (stem ++ '.' :: ext).reverse = ext.reverse ++ '.' :: stem.reverse := by simp
  have hafter : ((stem ++ '.' :: ext).reverse.takeWhile (· != '.')).reverse = ext := by
    have hall : ∀ c ∈ ext.reverse, (c != '.') = true := by
      intro c hc
      refine bne_iff_ne.mpr ?_
      rintro rfl
      exact hext (List.mem_reverse.mp hc)
    rw [hreverse, List.takeWhile_append_of_pos hall]
    simp
  have hlength : (stem ++ '.' :: ext).length - ext.length - 1 = stem.length := by
    simp only [List.length_append, List.length_cons]
    omega
  have hne : ext.length ≠ (stem ++ '.' :: ext).length := by
    simp only [List.length_append, List.length_cons]
    omega
  simp only [splitExtension, hafter, hlength, List.take_left', hne, hstem, or_self, if_false]

theorem extension?_join (p : Path) (h : Proper name) {stem ext : List Char} (hstem : stem ≠ [])
    (hext : '.' ∉ ext) (hname : name.toList = stem ++ '.' :: ext) :
    (p.join name).extension? = some (String.ofList ext) := by
  rw [extension?, fileName?_join p h, Option.bind_some, hname, splitExtension_append hstem hext]
  rfl

end Path

namespace Files

variable {fs : Files} {base : List String}

/-! ## Directories -/

theorem resolveFrom_append (fs : Files) (base before after : List String) :
    fs.resolveFrom base (before ++ after)
      = (fs.resolveFrom base before).bind fun cs => fs.resolveFrom cs after := by
  induction before generalizing base with
  | nil => rfl
  | cons c before ih =>
    rw [List.cons_append, resolveFrom, resolveFrom]
    cases fs.at? base with
    | none => rfl
    | some node =>
      cases node with
      | file bytes => rfl
      | directory =>
        dsimp only
        split
        · exact ih _
        · exact ih _

/-- A proper name behind a directory stands for its entry of that name. -/
theorem resolve_join {p : Path} {dir : List String} (hdir : fs.resolve p = .ok dir)
    (hat : fs.at? dir = some .directory) (h : Path.Proper name) :
    fs.resolve (p.join name) = .ok (dir ++ [name]) := by
  have hnot : ¬ p.text.isEmpty := by
    intro hempty
    rw [resolve, if_pos hempty] at hdir
    cases hdir
  have hnot' : ¬ (p.join name).text.isEmpty := by
    intro hempty
    have hcomponents := Path.components_join p h
    rw [Path.eq_of_isEmpty hempty] at hcomponents
    exact List.append_ne_nil_of_right_ne_nil _ (List.cons_ne_nil _ _) hcomponents.symm
  rw [resolve, if_neg hnot] at hdir
  rw [resolve, if_neg hnot', Path.components_join p h, start, Path.isAbsolute_join p h, ← start,
    resolveFrom_append, hdir]
  simp only [Except.bind, resolveFrom, hat, h.ne_up, if_false]

end Files

end Palmtop
