import Palmtop.Archive.Cursor
import Palmtop.Archive.Writer
import Palmtop.Proofs.Path
import Palmtop.Proofs.Text.Digits
import Palmtop.Settings.ArchivePath

/-! # Laws of archive paths

The name of an archive is the PIN, day and time and the extension of its compression.  All of it has
a fixed width but the year, which is five characters long before the year -999 and four from then
on, and starts with the minus sign if it has one.  So the PIN and the time can be read off the name
(`compact_inj`, `archiveName_inj`), and the part behind its last dot is one that stands for the
compression (`ofPath_archivePath`).
-/
namespace Palmtop

namespace Timestamp

variable {t u : Timestamp}

/-! ## Day and time -/

theorem yearText_inj {y z : Int} : yearText y = yearText z ↔ y = z := by
  refine ⟨fun h => ?_, fun h => h ▸ rfl⟩
  have hminus (n : Nat) : '-' ∉ Text.padded 10 4 n :=
    Text.notMem_padded (by decide) (by decide) (by decide)
  by_cases hy : y < 0 <;> by_cases hz : z < 0
  · rw [yearText, if_pos hy, yearText, if_pos hz] at h
    have habs := (Text.padded_inj (by decide) (by decide)).mp (List.cons.inj h).2
    omega
  · rw [yearText, if_pos hy, yearText, if_neg hz] at h
    exact absurd (h ▸ List.mem_cons_self) (hminus _)
  · rw [yearText, if_neg hy, yearText, if_pos hz] at h
    exact absurd (h ▸ List.mem_cons_self) (hminus _)
  · rw [yearText, if_neg hy, yearText, if_neg hz] at h
    have habs := (Text.padded_inj (by decide) (by decide)).mp h
    omega

/-- The minus sign is one of four places, until there is no room for it. -/
example : String.ofList (yearText (-5)) = "-005" ∧ String.ofList (yearText (-9999)) = "-9999" := by
  decide +kernel

/-- Two places are two characters, whatever stands in them. -/
theorem length_two {m n : Nat} (hm : m < 100) (hn : n < 100) :
    (Text.padded 10 2 m).length = (Text.padded 10 2 n).length := by
  rw [Text.length_padded (by decide) (by decide) hm, Text.length_padded (by decide) (by decide) hn]

/-- No two seconds are written alike. -/
theorem compact_inj : t.compact = u.compact ↔ t = u := by
  refine ⟨fun h => ?_, fun h => h ▸ rfl⟩
  have htwo {m n : Nat} : Text.padded 10 2 m = Text.padded 10 2 n ↔ m = n :=
    Text.padded_inj (by decide) (by decide)
  obtain ⟨year, month, day, hour, minute, second, _, _, hmonth, hday, hhour, hminute, hsecond⟩ := t
  obtain ⟨year', month', day', hour', minute', second', _, _, hmonth', hday', hhour', hminute',
    hsecond'⟩ := u
  let two := Text.padded 10 2
  have h : yearText year ++ two month ++ two day ++ '-' :: two hour ++ two minute ++ two second =
      yearText year' ++ two month' ++ two day' ++ '-' :: two hour' ++ two minute' ++ two second' :=
    String.ofList_injective h
  -- Everything behind the year has a fixed width, so the parts are told apart from the end on.
  obtain ⟨h, hs⟩ := List.append_inj' h (length_two (by omega) (by omega))
  obtain ⟨h, hmin⟩ := List.append_inj' h (length_two (by omega) (by omega))
  obtain ⟨h, hh⟩ := List.append_inj' h (congrArg (· + 1) (length_two (by omega) (by omega)))
  obtain ⟨h, hd⟩ := List.append_inj' h (length_two (by omega) (by omega))
  obtain ⟨hy, hmon⟩ := List.append_inj' h (length_two (by omega) (by omega))
  obtain rfl := yearText_inj.mp hy
  obtain rfl := htwo.mp hmon
  obtain rfl := htwo.mp hd
  obtain rfl := htwo.mp (List.cons.inj hh).2
  obtain rfl := htwo.mp hmin
  obtain rfl := htwo.mp hs
  rfl

/-- There are only digits and dashes. -/
theorem notMem_compact {c : Char} (hdigit : ∀ d < 16, c ≠ Nat.digitChar d) (hdash : c ≠ '-') :
    c ∉ t.compact.toList := by
  have hpadded (width n : Nat) : c ∉ Text.padded 10 width n :=
    Text.notMem_padded (by decide) (by decide) hdigit
  have hyear : c ∉ yearText t.year := by
    unfold yearText
    split <;> simp [hpadded, hdash]
  simp [compact, hyear, hpadded, hdash]

end Timestamp

namespace Settings

open Archive (Compression)

variable {compression : Compression} {pin pin' : Pin} {t u : Timestamp}

/-! ## Names -/

/-- The part of an archive's name that does not depend on the compression. -/
def archiveStem (pin : Pin) (t : Timestamp) : List Char :=
  Text.padded 16 8 pin.toNat ++ '-' :: t.compact.toList

theorem toList_archiveName (compression : Compression) (pin : Pin) (t : Timestamp) :
    (archiveName compression pin t).toList
      = archiveStem pin t ++ '.' :: compression.extension.toList := by
  simp [archiveName, archiveStem, Text.hex8, toString]

theorem length_pin (pin : Pin) : (Text.padded 16 8 pin.toNat).length = 8 :=
  Text.length_padded (by decide) (by decide) pin.toNat_lt

theorem archiveStem_inj : archiveStem pin t = archiveStem pin' u ↔ pin = pin' ∧ t = u := by
  refine ⟨fun h => ?_, fun h => h.1 ▸ h.2 ▸ rfl⟩
  obtain ⟨hpin, htime⟩ := List.append_inj h ((length_pin pin).trans (length_pin pin').symm)
  have hpins := (Text.padded_inj (by decide) (by decide)).mp hpin
  have htimes := String.toList_injective (List.cons.inj htime).2
  exact ⟨UInt32.toNat_inj.mp hpins, Timestamp.compact_inj.mp htimes⟩

/-- The name tells the PIN and the second. -/
theorem archiveName_inj :
    archiveName compression pin t = archiveName compression pin' u ↔ pin = pin' ∧ t = u := by
  rw [← String.toList_inj, toList_archiveName, toList_archiveName, List.append_cancel_right_eq,
    archiveStem_inj]

theorem slash_notMem_archiveName (compression : Compression) (pin : Pin) (t : Timestamp) :
    '/' ∉ (archiveName compression pin t).toList := by
  have hpin : '/' ∉ Text.padded 16 8 pin.toNat :=
    Text.notMem_padded (by decide) (by decide) (by decide)
  have htime : '/' ∉ t.compact.toList := Timestamp.notMem_compact (by decide) (by decide)
  have hextension : '/' ∉ compression.extension.toList := by cases compression <;> decide
  simp [toList_archiveName, archiveStem, hpin, htime, hextension]

/-- The dash tells the name from the components that are no names. -/
theorem archiveName_proper (compression : Compression) (pin : Pin) (t : Timestamp) :
    Path.Proper (archiveName compression pin t) := by
  have hdash : '-' ∈ (archiveName compression pin t).toList := by
    simp [toList_archiveName, archiveStem]
  have hname {other : String} (h : '-' ∉ other.toList) : archiveName compression pin t ≠ other :=
    fun he => h (he ▸ hdash)
  exact ⟨hname (by decide), hname (by decide), hname (by decide),
    slash_notMem_archiveName compression pin t⟩

/-! ## Paths -/

variable {s : Settings}

theorem archivePath_inj {info info' : DeviceInfo} :
    s.archivePath info t = s.archivePath info' u ↔ info.pin = info'.pin ∧ t = u := by
  rw [archivePath, archivePath, Path.join_inj, archiveName_inj]

theorem components_archivePath (s : Settings) (info : DeviceInfo) (t : Timestamp) :
    (s.archivePath info t).components
      = s.archiveDir.components ++ [archiveName s.compression info.pin t] :=
  Path.components_join _ (archiveName_proper _ _ _)

/-- What follows the last dot stands for the compression, also where that is not the extension of
the tar file inside. -/
theorem extension_spec (compression : Compression) :
    ∃ front ext, '.' :: compression.extension.toList = front ++ '.' :: ext ∧ '.' ∉ ext ∧
      Compression.ofExtension (String.ofList ext) = compression := by
  cases compression with
  | plain => exact ⟨[], "tar".toList, rfl, by decide, by decide +kernel⟩
  | gzip => exact ⟨".tar".toList, "gz".toList, by decide, by decide, by decide +kernel⟩
  | bzip2 => exact ⟨".tar".toList, "bz2".toList, by decide, by decide, by decide +kernel⟩

theorem ofPath_archivePath (s : Settings) (info : DeviceInfo) (t : Timestamp) :
    Compression.ofPath (s.archivePath info t) = s.compression := by
  obtain ⟨front, ext, hextension, hdot, hof⟩ := extension_spec s.compression
  have hname : (archiveName s.compression info.pin t).toList
      = (archiveStem info.pin t ++ front) ++ '.' :: ext := by
    rw [toList_archiveName, hextension, List.append_assoc]
  have hstem : archiveStem info.pin t ++ front ≠ [] := by simp [archiveStem]
  rw [Compression.ofPath, archivePath, Path.extension?_join _ (archiveName_proper _ _ _) hstem hdot
    hname]
  exact hof

/-- What the archive paths of these settings are good for. -/
structure NamesArchives (s : Settings) : Prop where
  /-- Two archives have one path only if they are of one device and one second. -/
  same_iff : ∀ info info' t u,
    s.archivePath info t = s.archivePath info' u ↔ info.pin = info'.pin ∧ t = u
  /-- Nor do they have one path written in two ways. -/
  components_eq_iff : ∀ info info' t u,
    (s.archivePath info t).components = (s.archivePath info' u).components ↔
      info.pin = info'.pin ∧ t = u
  /-- The path is the directory of archives and the name, -/
  components : ∀ info t,
    (s.archivePath info t).components
      = s.archiveDir.components ++ [archiveName s.compression info.pin t] ∧
    (s.archivePath info t).isAbsolute = s.archiveDir.isAbsolute
  /-- and stands for the entry of that name in the directory. -/
  resolve : ∀ (files : Files) dir info t, files.resolve s.archiveDir = .ok dir →
    files.at? dir = some .directory →
    files.resolve (s.archivePath info t) = .ok (dir ++ [archiveName s.compression info.pin t])
  compression : ∀ info t, Compression.ofPath (s.archivePath info t) = s.compression
  /-- So an archive is written with the compression that is set, -/
  create : ∀ info t files, Archive.Writer.create (s.archivePath info t) files
    = Archive.Writer.createWith s.compression (s.archivePath info t) files
  /-- and read with it. -/
  load : ∀ info t (files : Files) bytes, files.node (s.archivePath info t) = .ok (.file bytes) →
    Archive.load files (s.archivePath info t) = .ok (Archive.Tar.read (s.compression.unwrap bytes))

/-- **Archive paths.**  Whatever is set: the path of an archive tells the device and the second,
lies in the directory of archives and has an extension that stands for the compression. -/
theorem namesArchives (s : Settings) : NamesArchives s where
  same_iff _ _ _ _ := archivePath_inj
  components_eq_iff info info' t u := by
    rw [components_archivePath, components_archivePath, List.append_cancel_left_eq,
      List.singleton_inj, archiveName_inj]
  components info t :=
    ⟨components_archivePath s info t, Path.isAbsolute_join _ (archiveName_proper _ _ _)⟩
  resolve files dir info t hdir hat :=
    Files.resolve_join hdir hat (archiveName_proper s.compression info.pin t)
  compression := ofPath_archivePath s
  create info t files := by rw [Archive.Writer.create, ofPath_archivePath]
  load info t files bytes hnode := by
    simp only [Archive.load, hnode, ofPath_archivePath]

end Settings

end Palmtop
