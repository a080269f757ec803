import Palmtop.Archive.EntryName
import Palmtop.Archive.Tar
import Palmtop.Proofs.Path
import Palmtop.Proofs.Text.Digits
import Palmtop.Proofs.Text.Utf8

/-! # Laws of entry names

The name of a record is the database, a slash and a leaf made of the id, a blank and the type.  What
is stored under it is read back (`parse?_of_entryName?`), and what is read at all has the form of
such a name, but for the way its numbers are written (`parse?_eq_some_iff`).  As the path of a
member it has two components, so that a tar file takes it unless the database is called like the
parent directory (`isStorablePath_entryName`), and stores it as it is unless the database is called
like the directory itself (`storedName_entryName`).  Of such a name the leaf alone is stored
(`storedName_dot`), which is no entry name (`parse?_leaf`).
-/
namespace Palmtop.Archive

variable {database name : String} {id : UniqueId} {type : UInt8}

/-- What follows the slash of an entry name. -/
def leaf (id : UniqueId) (type : UInt8) : List Char :=
  Text.padded 16 8 id.toNat ++ ' ' :: Nat.toDigits 10 type.toNat

/-- The characters of an entry name. -/
theorem entryName?_eq_some (h : entryName? database id type = some name) :
    isStorableName database = true ∧ name.toList = database.toList ++ '/' :: leaf id type := by
  unfold entryName? at h
  split at h
  · rename_i hs
    refine ⟨hs, ?_⟩
    rw [← Option.some.inj h]
    change (database ++ "/" ++ id.show ++ " " ++ Nat.repr type.toNat).toList = _
    simp [leaf, UniqueId.show, Text.hex8]
  · cases h

theorem isStorableName_iff : isStorableName database = true ↔
    database ≠ "" ∧ '/' ∉ database.toList ∧ '\x00' ∉ database.toList := by
  simp [isStorableName, and_assoc]

/-! ## Reading -/

theorem cutAt?_append {sep : Char} {cs : List Char} (h : sep ∉ cs) (rest : List Char) :
    cutAt? sep (cs ++ sep :: rest) = some (cs, rest) := by
  induction cs with
  | nil => simp [cutAt?]
  | cons c cs ih =>
    rw [List.mem_cons, not_or] at h
    rw [List.cons_append, cutAt?, if_neg (Ne.symm h.1), ih h.2]
    rfl

/-- What is stored under an entry name is read back. -/
theorem parse?_of_entryName? (h : entryName? database id type = some name) :
    EntryName.parse? name = some ⟨database, id, type⟩ := by
  obtain ⟨hs, hname⟩ := entryName?_eq_some h
  obtain ⟨hempty, hslash, -⟩ := isStorableName_iff.mp hs
  have hblank : ' ' ∉ Text.padded 16 8 id.toNat :=
    Text.notMem_padded (by decide) (by decide) (by decide)
  have hid : Text.readNumber? 16 UInt64.size (Text.padded 16 8 id.toNat) = some id.toNat :=
    Text.readNumber?_padded (by decide) (by decide) id.toNat_lt 8
  have htype : Text.readNumber? 10 256 (Nat.toDigits 10 type.toNat) = some type.toNat := by
    rw [← Text.padded_zero]
    exact Text.readNumber?_padded (by decide) (by decide) type.toNat_lt 0
  simp [EntryName.parse?, hname, leaf, cutAt?_append hslash, cutAt?_append hblank, hempty, hid,
    htype]

theorem cutAt?_of_notMem {sep : Char} {cs : List Char} (h : sep ∉ cs) : cutAt? sep cs = none := by
  induction cs with
  | nil => rfl
  | cons c cs ih =>
    rw [List.mem_cons, not_or] at h
    rw [cutAt?, if_neg (Ne.symm h.1), ih h.2]
    rfl

/-- What has been cut is what stands around the first `sep`. -/
theorem cutAt?_eq_some_iff {sep : Char} {cs before rest : List Char} :
    cutAt? sep cs = some (before, rest) ↔ sep ∉ before ∧ cs = before ++ sep :: rest := by
  constructor
  · intro h
    induction cs generalizing before with
    | nil => cases h
    | cons c cs ih =>
      rw [cutAt?] at h
      split at h
      · rename_i hc
        cases h
        exact ⟨List.not_mem_nil, hc ▸ rfl⟩
      · rename_i hc
        obtain ⟨⟨before, rest⟩, hcut, hp⟩ := Option.map_eq_some_iff.mp h
        cases hp
        obtain ⟨hnot, rfl⟩ := ih hcut
        exact ⟨by simp [Ne.symm hc, hnot], rfl⟩
  · rintro ⟨hnot, rfl⟩
    exact cutAt?_append hnot rest

/-- The entry names that are read: a database, a slash, a hexadecimal numeral for the id, a blank
and a decimal numeral for the type. -/
theorem parse?_eq_some_iff : EntryName.parse? name = some ⟨database, id, type⟩ ↔
    database ≠ "" ∧ '/' ∉ database.toList ∧ ∃ h n : String,
      name = database ++ "/" ++ h ++ " " ++ n ∧
        Text.Numeral 16 h.toList id.toNat ∧ Text.Numeral 10 n.toList type.toNat := by
  constructor
  · intro h
    simp only [EntryName.parse?, Option.bind_eq_bind, Option.bind_eq_some_iff, Prod.exists,
      cutAt?_eq_some_iff] at h
    obtain ⟨before, rest, ⟨hslash, hname⟩, h, n, ⟨-, rfl⟩, hread⟩ := h
    split at hread
    · cases hread
    rename_i hempty
    simp only [Option.bind_eq_some_iff, Text.readNumber?_eq_some_iff (by decide : 16 ≤ 16),
      Text.readNumber?_eq_some_iff (by decide : 10 ≤ 16)] at hread
    obtain ⟨u, ⟨hu, hlt⟩, t, ⟨ht, hlt'⟩, hparsed⟩ := hread
    cases hparsed
    have hid : (UInt64.ofNat u).toNat = u := UInt64.toNat_ofNat_of_lt hlt
    have htype : (UInt8.ofNat t).toNat = t := UInt8.toNat_ofNat_of_lt hlt'
    refine ⟨by simpa using hempty, by simpa using hslash, String.ofList h, String.ofList n, ?_,
      by simpa [hid] using hu, by simpa [htype] using ht⟩
    apply String.toList_injective
    simp [hname]
  · rintro ⟨hempty, hslash, h, n, rfl, hid, htype⟩
    have hblank : ' ' ∉ h.toList := hid.notMem (by decide) (by decide) (by decide)
    have hid := (Text.readNumber?_eq_some_iff (by decide)).mpr ⟨hid, id.toNat_lt⟩
    have htype := (Text.readNumber?_eq_some_iff (by decide)).mpr ⟨htype, type.toNat_lt⟩
    have hname : (database ++ "/" ++ h ++ " " ++ n).toList
        = database.toList ++ '/' :: (h.toList ++ ' ' :: n.toList) := by simp
    simp [EntryName.parse?, hname, cutAt?_append hslash, cutAt?_append hblank, hempty, hid, htype]

/-- **The grammar of entry names.**  A name is read as a database, an id and a type if and only if
it is the database, which is not empty and has no slash, then a slash, a hexadecimal numeral for
the id, a blank and a decimal numeral for the type.  The name under which a record is stored is read
as that of its database, id and type, so no two of these have one name. -/
theorem entryName_grammar :
    (∀ (name database : String) (id : UniqueId) (type : UInt8),
      EntryName.parse? name = some ⟨database, id, type⟩ ↔
        database ≠ "" ∧ '/' ∉ database.toList ∧ ∃ h n : String,
          name = database ++ "/" ++ h ++ " " ++ n ∧
            Text.Numeral 16 h.toList id.toNat ∧ Text.Numeral 10 n.toList type.toNat) ∧
    (∀ database id type name, entryName? database id type = some name →
      EntryName.parse? name = some ⟨database, id, type⟩) ∧
    ∀ (x y : EntryName) (name : String),
      entryName? x.database x.uniqueId x.recordType = some name →
      entryName? y.database y.uniqueId y.recordType = some name → x = y := by
  refine ⟨fun _ _ _ _ => parse?_eq_some_iff, fun _ _ _ _ => parse?_of_entryName?, ?_⟩
  intro x y name hx hy
  have hread := (parse?_of_entryName? hx).symm.trans (parse?_of_entryName? hy)
  exact Option.some.inj hread

/-- Both numbers may have a plus sign and zeros in front, and the database blanks. -/
example : EntryName.parse? "To Do/+0000000000000000aBc +007" = some ⟨"To Do", 0xabc, 7⟩ := by
  decide +kernel

/-! ## As a path -/

theorem slash_notMem_leaf (id : UniqueId) (type : UInt8) : '/' ∉ leaf id type := by
  have hdigits (base width n : Nat) (hb : 1 < base) (hb' : base ≤ 16) :
      '/' ∉ Text.padded base width n := Text.notMem_padded hb hb' (by decide)
  have htype := hdigits 10 0 type.toNat (by decide) (by decide)
  rw [Text.padded_zero] at htype
  simp [leaf, hdigits 16 8 id.toNat (by decide) (by decide), htype]

/-- A component with a blank in it is a proper one. -/
theorem leaf_proper (id : UniqueId) (type : UInt8) :
    String.ofList (leaf id type) ≠ "" ∧ String.ofList (leaf id type) ≠ "." ∧
      String.ofList (leaf id type) ≠ ".." := by
  have hblank : ' ' ∈ (String.ofList (leaf id type)).toList := by simp [leaf]
  refine ⟨?_, ?_, ?_⟩ <;> intro h <;> rw [h] at hblank <;> simp at hblank

theorem components_entryName (h : entryName? database id type = some name)
    (hdot : database ≠ ".") :
    Path.components ⟨name⟩ = [database, String.ofList (leaf id type)] := by
  obtain ⟨hs, hname⟩ := entryName?_eq_some h
  obtain ⟨hempty, hslash, -⟩ := isStorableName_iff.mp hs
  obtain ⟨hleaf, hleaf', -⟩ := leaf_proper id type
  rw [Path.components, hname, Path.splitOnChar_append, Path.splitOnChar_of_notMem hslash,
    Path.splitOnChar_of_notMem (slash_notMem_leaf id type)]
  simp [hempty, hdot, hleaf, hleaf']

/-- A database called like the directory itself is no component. -/
theorem components_dot (h : entryName? "." id type = some name) :
    Path.components ⟨name⟩ = [String.ofList (leaf id type)] := by
  obtain ⟨-, hname⟩ := entryName?_eq_some h
  obtain ⟨hleaf, hleaf', -⟩ := leaf_proper id type
  rw [Path.components, hname, Path.splitOnChar_append, Path.splitOnChar_of_notMem (by decide),
    Path.splitOnChar_of_notMem (slash_notMem_leaf id type)]
  simp [hleaf, hleaf']

theorem isAbsolute_entryName (h : entryName? database id type = some name) :
    Path.isAbsolute ⟨name⟩ = false := by
  obtain ⟨hs, hname⟩ := entryName?_eq_some h
  obtain ⟨hempty, hslash, -⟩ := isStorableName_iff.mp hs
  rw [Path.isAbsolute, hname]
  cases hd : database.toList with
  | nil => exact absurd (String.toList_eq_nil_iff.mp hd) hempty
  | cons c cs =>
    rw [hd, List.mem_cons, not_or] at hslash
    simpa using Ne.symm hslash.1

theorem isStorablePath_entryName (h : entryName? database id type = some name) :
    Tar.isStorablePath ⟨name⟩ = true ↔ database ≠ ".." := by
  have habsolute := isAbsolute_entryName h
  have hleaf := (leaf_proper id type).2.2
  by_cases hdot : database = "."
  · subst hdot
    simp [Tar.isStorablePath, habsolute, components_dot h, Ne.symm hleaf]
  · have hup : ".." ∈ [database, String.ofList (leaf id type)] ↔ database = ".." := by
      rw [List.mem_cons, List.mem_singleton, or_iff_left (Ne.symm hleaf)]
      exact eq_comm
    simp [Tar.isStorablePath, habsolute, components_entryName h hdot, -List.mem_cons, hup]

theorem storedName_entryName (h : entryName? database id type = some name)
    (hdot : database ≠ ".") : Tar.storedName ⟨name⟩ = name := by
  obtain ⟨-, hname⟩ := entryName?_eq_some h
  rw [Tar.storedName, components_entryName h hdot]
  apply String.toList_injective
  rw [hname, String.intercalate_cons_cons, String.intercalate_singleton]
  simp

/-- Without the database the leaf remains. -/
theorem storedName_dot (h : entryName? "." id type = some name) :
    Tar.storedName ⟨name⟩ = String.ofList (leaf id type) := by
  rw [Tar.storedName, components_dot h, String.intercalate_singleton]

theorem zero_notMem_leaf (id : UniqueId) (type : UInt8) : '\x00' ∉ leaf id type := by
  have hdigits (base width n : Nat) (hb : 1 < base) (hb' : base ≤ 16) :
      '\x00' ∉ Text.padded base width n := Text.notMem_padded hb hb' (by decide)
  have htype := hdigits 10 0 type.toNat (by decide) (by decide)
  rw [Text.padded_zero] at htype
  simp [leaf, hdigits 16 8 id.toNat (by decide) (by decide), htype]

/-- An entry name has no zero character. -/
theorem zero_notMem_entryName (h : entryName? database id type = some name) :
    '\x00' ∉ name.toList := by
  obtain ⟨hs, hname⟩ := entryName?_eq_some h
  obtain ⟨-, -, hzero⟩ := isStorableName_iff.mp hs
  rw [hname]
  simp [hzero, zero_notMem_leaf id type]

/-- A leaf alone is no entry name. -/
theorem parse?_leaf (id : UniqueId) (type : UInt8) :
    EntryName.parse? (String.ofList (leaf id type)) = none := by
  simp [EntryName.parse?, cutAt?_of_notMem (slash_notMem_leaf id type)]

/-! ## Sizes -/

/-- A leaf has at most twenty characters. -/
theorem length_leaf_le (id : UniqueId) (type : UInt8) : (leaf id type).length ≤ 20 := by
  have hid : (Nat.toDigits 16 id.toNat).length ≤ 16 :=
    (Nat.length_toDigits_le_iff (by decide) (by decide)).mpr id.toNat_lt
  have htype : (Nat.toDigits 10 type.toNat).length ≤ 3 :=
    (Nat.length_toDigits_le_iff (by decide) (by decide)).mpr
      (Nat.lt_of_lt_of_le type.toNat_lt (by decide))
  simp only [leaf, Text.padded, List.length_append, List.length_cons, List.length_replicate]
  omega

theorem size_entryName (h : entryName? database id type = some name) :
    name.toUTF8.size ≤ database.toUTF8.size + 81 := by
  obtain ⟨-, hname⟩ := entryName?_eq_some h
  have hleaf := length_leaf_le id type
  have hsize := Text.size_toUTF8_le (leaf id type)
  have hparts : name = database ++ "/" ++ String.ofList (leaf id type) := by
    apply String.toList_injective
    simp [hname]
  rw [hparts]
  simp only [String.toUTF8_eq_toByteArray, String.toByteArray_append, ByteArray.size_append]
    at hsize ⊢
  have hslash : "/".toByteArray.size = 1 := rfl
  omega

end Palmtop.Archive
