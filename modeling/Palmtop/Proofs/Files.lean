import Palmtop.Files
import Palmtop.Proofs.Association

/-! # Laws of files

A file that was created at a path and stored is found at that path (`node_store`).  Following a path
steps through directories alone (`resolveFrom_of_directories`), and so neither a file put at its end
gets in the way nor do files that are lost (`Thins.node_eq`).
-/
namespace Palmtop.Files

variable {fs fs' : Files} {cs : List String} {node : Node} {p : Path} {bytes : ByteArray}

theorem at?_set_self (hcs : fs.at? cs ≠ some .directory) (node : Node) :
    (fs.set cs node).at? cs = some node := by
  have hproper : ¬ (cs = [] ∨ cs = ["/"]) := fun h => hcs (if_pos h)
  rw [at?, if_neg hproper]
  exact lookup_cons_filter_self cs node fs.nodes

theorem at?_set_of_ne {other : List String} (h : other ≠ cs) (node : Node) :
    (fs.set cs node).at? other = fs.at? other := by
  rw [at?, at?]
  split
  · rfl
  · exact lookup_cons_filter_of_ne h node fs.nodes

/-- Following a path steps through directories alone. -/
theorem resolveFrom_of_directories {base out : List String} {rest : List String}
    (h : fs.resolveFrom base rest = .ok out)
    (hdirectories : ∀ cs, fs.at? cs = some .directory → fs'.at? cs = some .directory) :
    fs'.resolveFrom base rest = .ok out := by
  induction rest generalizing base with
  | nil => exact h
  | cons c rest ih =>
    rw [resolveFrom] at h ⊢
    cases hat : fs.at? base with
    | none =>
      rw [hat] at h
      cases h
    | some n =>
      cases n with
      | file bytes =>
        rw [hat] at h
        cases h
      | directory =>
        rw [hdirectories base hat]
        rw [hat] at h
        simp only at h ⊢
        split
        · rename_i hup
          rw [if_pos hup] at h
          exact ih h
        · rename_i hdown
          rw [if_neg hdown] at h
          exact ih h

theorem resolve_of_directories (h : fs.resolve p = .ok cs)
    (hdirectories : ∀ cs, fs.at? cs = some .directory → fs'.at? cs = some .directory) :
    fs'.resolve p = .ok cs := by
  unfold resolve at h ⊢
  split at h
  · cases h
  · rename_i hempty
    rw [if_neg hempty]
    exact resolveFrom_of_directories h hdirectories

theorem resolve_set (h : fs.resolve p = .ok cs) (hcs : fs.at? cs ≠ some .directory) (node : Node) :
    (fs.set cs node).resolve p = .ok cs := by
  refine resolve_of_directories h fun other hother => ?_
  have hne : other ≠ cs := fun he => hcs (he ▸ hother)
  rwa [at?_set_of_ne hne]

/-- A file that was created is empty until it is stored. -/
theorem create_eq_ok (h : fs.create p = .ok (cs, fs')) : fs.resolve p = .ok cs ∧
    fs.at? cs ≠ some .directory ∧ p.endsWithSlash = false ∧ fs' = fs.set cs (.file .empty) := by
  unfold create at h
  split at h
  · cases h
  rename_i cs' hresolve
  split at h
  · cases h
  · rename_i hat
    split at h
    · cases h
    rename_i hslash
    obtain ⟨rfl, rfl⟩ := Prod.mk.inj (Except.ok.inj h)
    exact ⟨hresolve, by simp [hat], by simpa using hslash, rfl⟩
  · rename_i hat
    split at h
    · cases h
    rename_i hslash
    obtain ⟨rfl, rfl⟩ := Prod.mk.inj (Except.ok.inj h)
    exact ⟨hresolve, by simp [hat], by simpa using hslash, rfl⟩

/-- A file put at the end of a path is there. -/
theorem node_set (hresolve : fs.resolve p = .ok cs) (hcs : fs.at? cs ≠ some .directory)
    (hslash : p.endsWithSlash = false) (bytes : ByteArray) :
    (fs.set cs (.file bytes)).node p = .ok (.file bytes) := by
  simp only [Files.node, resolve_set hresolve hcs, at?_set_self hcs, hslash, Bool.false_eq_true,
    if_false]

/-- What was stored at a created path is there. -/
theorem node_store (h : fs.create p = .ok (cs, fs')) (bytes : ByteArray) :
    (fs'.store cs bytes).node p = .ok (.file bytes) := by
  obtain ⟨hresolve, hat, hslash, rfl⟩ := create_eq_ok h
  have hempty : (fs.set cs (.file .empty)).at? cs = some (.file .empty) := at?_set_self hat _
  have hfile : (fs.set cs (.file .empty)).at? cs ≠ some .directory := by simp [hempty]
  rw [store, hempty]
  exact node_set (resolve_set hresolve hat _) hfile hslash bytes

/-! ## Files that are lost -/

theorem at?_erase_self (hcs : fs.at? cs ≠ some .directory) : (fs.erase cs).at? cs = none := by
  have hproper : ¬ (cs = [] ∨ cs = ["/"]) := fun h => hcs (if_pos h)
  rw [at?, if_neg hproper]
  exact lookup_filter_self cs fs.nodes

theorem at?_erase_of_ne {other : List String} (h : other ≠ cs) :
    (fs.erase cs).at? other = fs.at? other := by
  rw [at?, at?]
  split
  · rfl
  · exact lookup_filter_of_ne h fs.nodes

/-- A file that was created can be removed, and then there is nothing. -/
theorem remove_create (h : fs.create p = .ok (cs, fs')) :
    ∃ fs'', fs'.remove p = .ok fs'' ∧ fs''.node p = .error .notFound := by
  obtain ⟨hresolve, hat, hslash, rfl⟩ := create_eq_ok h
  have hempty : (fs.set cs (.file .empty)).at? cs = some (.file .empty) := at?_set_self hat _
  have hfile : (fs.set cs (.file .empty)).at? cs ≠ some .directory := by simp [hempty]
  have hthere := resolve_set hresolve hat (.file .empty)
  refine ⟨(fs.set cs (.file .empty)).erase cs, ?_, ?_⟩
  · simp only [remove, hthere, hempty, hslash, Bool.false_eq_true, if_false]
  · have hgone := resolve_of_directories hthere fun other hother => by
      have hne : other ≠ cs := fun he => hfile (he ▸ hother)
      exact (at?_erase_of_ne hne).trans hother
    simp only [Files.node, hgone, at?_erase_self hfile]

/-- Nothing has changed but, perhaps, that files were lost. -/
def Thins (lost : Prop) (fs fs' : Files) : Prop :=
  ∀ cs, fs'.at? cs = fs.at? cs ∨
    lost ∧ fs.at? cs ≠ some .directory ∧ fs'.at? cs = none

variable {lost : Prop}

theorem thins_self (lost : Prop) (fs : Files) : Thins lost fs fs := fun _ => Or.inl rfl

theorem Thins.trans {fs'' : Files} (h : Thins lost fs fs') (h' : Thins lost fs' fs'') :
    Thins lost fs fs'' := by
  intro cs
  rcases h' cs with heq | ⟨hlost, hfile, hnone⟩
  · rw [heq]
    exact h cs
  · rcases h cs with heq' | ⟨-, hfile', -⟩
    · exact Or.inr ⟨hlost, heq' ▸ hfile, hnone⟩
    · exact Or.inr ⟨hlost, hfile', hnone⟩

theorem thins_remove (hlost : lost) (h : fs.remove p = .ok fs') : Thins lost fs fs' := by
  unfold remove at h
  split at h
  · cases h
  rename_i cs _
  split at h
  · rename_i hat
    split at h
    · cases h
    cases h
    have hfile : fs.at? cs ≠ some .directory := by simp [hat]
    intro other
    by_cases hother : other = cs
    · subst hother
      exact Or.inr ⟨hlost, hfile, at?_erase_self hfile⟩
    · exact Or.inl (at?_erase_of_ne hother)
  · cases h
  · cases h

theorem Thins.resolve (h : Thins lost fs fs') (hresolve : fs.resolve p = .ok cs) :
    fs'.resolve p = .ok cs :=
  resolve_of_directories hresolve fun other hother =>
    ((h other).resolve_right fun hlost => hlost.2.1 hother).trans hother

/-- A file is there still or is lost. -/
theorem Thins.node_eq (h : Thins lost fs fs') (hnode : fs.node p = .ok (.file bytes)) :
    fs'.node p = .ok (.file bytes) ∨ lost ∧ fs'.node p = .error .notFound := by
  unfold Files.node at hnode
  split at hnode
  · cases hnode
  rename_i cs hresolve
  rw [Files.node, h.resolve hresolve]
  dsimp only
  rcases h cs with heq | ⟨hlost, -, hnone⟩
  · rw [heq]
    exact Or.inl hnode
  · rw [hnone]
    exact Or.inr ⟨hlost, rfl⟩

/-- What is stored is at the created path, if the file was not lost before. -/
theorem Thins.store (h : fs.create p = .ok (cs, fs')) {fs'' : Files} (hthins : Thins lost fs' fs'')
    (bytes : ByteArray) :
    ∃ full : Files, full.node p = .ok (.file bytes) ∧ Thins lost full (fs''.store cs bytes) := by
  obtain ⟨hresolve, hat, hslash, rfl⟩ := create_eq_ok h
  have hempty : (fs.set cs (.file .empty)).at? cs = some (.file .empty) := at?_set_self hat _
  have hthere := hthins.resolve (resolve_set hresolve hat _)
  rcases hthins cs with heq | ⟨hlost, -, hnone⟩
  · have hfile : fs''.at? cs ≠ some .directory := by simp [heq, hempty]
    refine ⟨_, node_set hthere hfile hslash bytes, ?_⟩
    rw [store, heq, hempty]
    exact thins_self lost _
  · have hfile : fs''.at? cs ≠ some .directory := by simp [hnone]
    refine ⟨_, node_set hthere hfile hslash bytes, fun other => ?_⟩
    rw [store, hnone]
    by_cases hother : other = cs
    · subst hother
      exact Or.inr ⟨hlost, by simp [at?_set_self hfile], hnone⟩
    · exact Or.inl (at?_set_of_ne hother _).symm

end Palmtop.Files
