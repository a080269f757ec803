import Mathlib.Algebra.GroupWithZero.Nat
import Palmtop.Archive.Writer
import Palmtop.Proofs.Archive.Cursor
import Palmtop.Proofs.Archive.EntryName
import Palmtop.Proofs.Archive.Members
import Palmtop.Proofs.Files
import Palmtop.Proofs.Transfer

/-! # An archive is read as it was written

A writer that is given records one after another stores exactly those whose database it `accepts`,
each as a member of its own behind the others (`Writer.putAll_extends`).  Where every record can be
read again, what the writer has stored is what a reader hands out (`Writer.Stores`,
`archived_of_stores`).
-/
namespace Palmtop.Archive

/-! ## Writing -/

namespace Writer

variable {w : Writer} {r : Record} {kept : List Record}

/-- Whether records of this database are taken. -/
def accepts (database : String) : Bool := isStorableName database && database != ".."

/-- The member is the one that the record is stored as. -/
def Stored (m : Tar.Member) (r : Record) : Prop :=
  ∃ name, entryName? r.database r.uniqueId r.recordType = some name ∧
    m = Tar.fileMember (Tar.storedName ⟨name⟩) r.payload

/-- The room that a record takes in an archive at most. -/
def room (r : Record) : Nat := r.database.toUTF8.size + r.payload.size + 5 * Tar.blockSize

/-- The second writer has stored these records besides, behind what was there. -/
structure Extends (w w' : Writer) (rs : List Record) : Prop where
  blocks : ∃ blocks members, w'.blocks = w.blocks ++ blocks ∧ Tar.ReadsAs blocks members ∧
    List.Forall₂ Stored members rs ∧ blocks.size ≤ (rs.map room).sum
  written : w'.written = w.written + rs.length
  compression : w'.compression = w.compression
  location : w'.location = w.location

theorem Extends.refl (w : Writer) : w.Extends w [] :=
  ⟨⟨.empty, [], by simp, Tar.readsAs_empty, .nil, Nat.le_refl _⟩, rfl, rfl, rfl⟩

theorem Extends.trans {w₁ w₂ w₃ : Writer} {rs₁ rs₂ : List Record} (h₁ : w₁.Extends w₂ rs₁)
    (h₂ : w₂.Extends w₃ rs₂) : w₁.Extends w₃ (rs₁ ++ rs₂) := by
  obtain ⟨blocks₁, members₁, hblocks₁, hreads₁, hstored₁, hsize₁⟩ := h₁.blocks
  obtain ⟨blocks₂, members₂, hblocks₂, hreads₂, hstored₂, hsize₂⟩ := h₂.blocks
  refine ⟨⟨blocks₁ ++ blocks₂, members₁ ++ members₂, ?_, hreads₁.append hreads₂,
    List.rel_append hstored₁ hstored₂, ?_⟩, ?_, h₂.compression.trans h₁.compression,
    h₂.location.trans h₁.location⟩
  · rw [hblocks₂, hblocks₁, ByteArray.append_assoc]
  · rw [ByteArray.size_append, List.map_append, List.sum_append]
    exact Nat.add_le_add hsize₁ hsize₂
  · rw [h₂.written, h₁.written, List.length_append, Nat.add_assoc]

/-- The blocks of a record are read as its member. -/
theorem member_stored {name : String} {blocks : ByteArray}
    (hname : entryName? r.database r.uniqueId r.recordType = some name)
    (hblocks : Tar.member? name r.payload = some blocks) :
    ∃ m, Tar.ReadsAs blocks [m] ∧ Stored m r := by
  have hzero := zero_notMem_entryName hname
  refine ⟨_, ?_, name, hname, rfl⟩
  by_cases hdot : r.database = "."
  · rw [hdot] at hname
    have hleaf := storedName_dot hname
    have hshort := Text.size_toUTF8_le (leaf r.uniqueId r.recordType)
    have hlength := length_leaf_le r.uniqueId r.recordType
    refine Tar.readsAs_member hblocks (Or.inr (by rw [hleaf]; omega)) ?_
    rw [hleaf, String.toList_ofList]
    exact zero_notMem_leaf _ _
  · have hstored := storedName_entryName hname hdot
    exact Tar.readsAs_member hblocks (Or.inl hstored) (hstored.symm ▸ hzero)

/-- A record is refused, which changes nothing, or stored behind the others. -/
theorem put_cases (w : Writer) (r : Record) :
    (accepts r.database = false ∧ ∃ e, w.put r = (.error e, w)) ∨
    (accepts r.database = true ∧ ∃ w', w.put r = (.ok (), w') ∧ w.Extends w' [r]) := by
  by_cases hs : isStorableName r.database = true
  · have hname : entryName? r.database r.uniqueId r.recordType
        = some s!"{r.database}/{r.uniqueId.show} {r.recordType.toNat}" := if_pos hs
    generalize s!"{r.database}/{r.uniqueId.show} {r.recordType.toNat}" = name at hname
    have hpath := isStorablePath_entryName hname
    by_cases hup : r.database = ".."
    · have hrefused : Tar.member? name r.payload = none := by
        have hpath : Tar.isStorablePath ⟨name⟩ = false :=
          eq_false_of_ne_true fun h => hpath.mp h hup
        rw [Tar.member?, hpath]
        rfl
      refine Or.inl ⟨by simp [accepts, hup], .io, ?_⟩
      simp only [put, hname, hrefused]
    · obtain ⟨blocks, hblocks⟩ := Tar.exists_member r.payload (hpath.mpr hup)
      obtain ⟨m, hreads, hstored⟩ := member_stored hname hblocks
      refine Or.inr ⟨by simp [accepts, hs, hup],
        { w with blocks := w.blocks ++ blocks, written := w.written + 1 },
        by simp only [put, hname, hblocks],
        ⟨blocks, [m], rfl, hreads, .cons hstored .nil, ?_⟩, rfl, rfl, rfl⟩
      have hsize := Tar.size_member hblocks (zero_notMem_entryName hname)
      have hsize' := size_entryName hname
      simp only [List.map_cons, List.map_nil, List.sum_cons, List.sum_nil, room, Tar.blockSize]
        at hsize ⊢
      omega
  · refine Or.inl ⟨by simp [accepts, hs], ?_⟩
    have hname : entryName? r.database r.uniqueId r.recordType = none := if_neg hs
    exact ⟨_, by simp only [put, hname]; rfl⟩

/-- What is put and not refused is stored behind the others. -/
theorem extends_of_put {w' : Writer} (h : w.put r = (.ok (), w')) : w.Extends w' [r] := by
  rcases put_cases w r with ⟨-, e, hput⟩ | ⟨-, w₁, hput, hextends⟩
  · rw [h] at hput
    cases hput
  · rw [h] at hput
    cases hput
    exact hextends

/-- What a writer stores of many records is those of them that it accepts. -/
theorem putAll_extends (rs : List Record) (w : Writer) :
    ∃ answers w', consumer.putAll rs w = (answers, w') ∧
      Consumer.taken rs answers = rs.filter (accepts ·.database) ∧
      w.Extends w' (Consumer.taken rs answers) := by
  induction rs generalizing w with
  | nil => exact ⟨[], w, rfl, rfl, .refl w⟩
  | cons r rs ih =>
    rcases put_cases w r with ⟨hrefuses, e, hput⟩ | ⟨haccepts, w₁, hput, hextends⟩
    · -- a record refused leaves nothing in the file
      obtain ⟨answers, w', hrun, htaken, hrest⟩ := ih w
      refine ⟨.error e :: answers, w', ?_, ?_, ?_⟩
      · simp only [Consumer.putAll, consumer, hput]
        rw [← consumer, hrun]
      · rw [Consumer.taken_cons_error, htaken, List.filter_cons, hrefuses, if_neg (by decide)]
      · rwa [Consumer.taken_cons_error]
    · obtain ⟨answers, w', hrun, htaken, hrest⟩ := ih w₁
      refine ⟨.ok () :: answers, w', ?_, ?_, ?_⟩
      · simp only [Consumer.putAll, consumer, hput]
        rw [← consumer, hrun]
      · rw [Consumer.taken_cons_ok, htaken, List.filter_cons, haccepts, if_pos rfl]
      · rw [Consumer.taken_cons_ok]
        exact hextends.trans hrest

/-- The writer has stored these records: its blocks are read as their entries. -/
structure Stores (w : Writer) (kept : List Record) : Prop where
  written : w.written = kept.length
  blocks : ∃ members, Tar.ReadsAs w.blocks members ∧ List.Forall₂ Cursor.Shows members kept

theorem stores_empty (hb : w.blocks = .empty) (hw : w.written = 0) : w.Stores [] :=
  ⟨hw, [], hb ▸ Tar.readsAs_empty, .nil⟩

/-- The member of a record, read again, shows the record. -/
theorem Stored.shows {m : Tar.Member} (h : Stored m r) (hdot : r.database ≠ ".")
    (hpayload : r.payload.size ≤ maxPayload) : Cursor.Shows m r := by
  obtain ⟨name, hname, rfl⟩ := h
  refine ⟨?_, rfl, rfl, hpayload⟩
  simp only [Cursor.entry?, Tar.fileMember, if_true, Text.lossy_toUTF8,
    storedName_entryName hname hdot, parse?_of_entryName? hname]

theorem shows_of_stored {members : List Tar.Member} {rs : List Record}
    (h : List.Forall₂ Stored members rs) (hdot : ∀ r ∈ rs, r.database ≠ ".")
    (hpayload : ∀ r ∈ rs, r.payload.size ≤ maxPayload) : List.Forall₂ Cursor.Shows members rs := by
  induction h with
  | nil => exact .nil
  | cons hm _ ih =>
    rw [List.forall_mem_cons] at hdot hpayload
    exact .cons (hm.shows hdot.1 hpayload.1) (ih hdot.2 hpayload.2)

theorem Extends.stores {w' : Writer} {rs : List Record} (h : w.Extends w' rs) (hw : w.Stores kept)
    (hdot : ∀ r ∈ rs, r.database ≠ ".") (hpayload : ∀ r ∈ rs, r.payload.size ≤ maxPayload) :
    w'.Stores (kept ++ rs) := by
  obtain ⟨members, hmembers, hkept⟩ := hw.blocks
  obtain ⟨blocks, more, hblocks, hreads, hstored, -⟩ := h.blocks
  exact ⟨by rw [h.written, hw.written, List.length_append], members ++ more,
    hblocks ▸ hmembers.append hreads, List.rel_append hkept (shows_of_stored hstored hdot hpayload)⟩

/-- What a writer stores of many records is what it accepts. -/
theorem putAll_stores (rs : List Record) (h : w.Stores kept)
    (hdot : ∀ r ∈ rs, r.database ≠ ".") (hpayload : ∀ r ∈ rs, r.payload.size ≤ maxPayload) :
    ∃ answers w', consumer.putAll rs w = (answers, w') ∧
      Consumer.taken rs answers = rs.filter (accepts ·.database) ∧
      w'.Stores (kept ++ Consumer.taken rs answers) ∧ w'.compression = w.compression ∧
      w'.location = w.location := by
  obtain ⟨answers, w', hrun, htaken, hextends⟩ := putAll_extends rs w
  have hmem : ∀ r ∈ Consumer.taken rs answers, r ∈ rs := fun r hr =>
    (List.mem_filter.mp (htaken ▸ hr)).1
  exact ⟨answers, w', hrun, htaken, hextends.stores h (fun r hr => hdot r (hmem r hr))
    (fun r hr => hpayload r (hmem r hr)), hextends.compression, hextends.location⟩

/-- Records of this database can be archived. -/
structure Archivable (database : String) : Prop where
  storable : isStorableName database = true
  ne_dot : database ≠ "."
  ne_dots : database ≠ ".."

instance (database : String) : Decidable (Archivable database) :=
  decidable_of_iff (isStorableName database = true ∧ database ≠ "." ∧ database ≠ "..")
    ⟨fun h => ⟨h.1, h.2.1, h.2.2⟩, fun h => ⟨h.1, h.2, h.3⟩⟩

theorem put_accepted (w : Writer) (h : Archivable r.database) : (w.put r).1 = .ok () := by
  rcases put_cases w r with ⟨hrefuses, -⟩ | ⟨-, w', hput, -⟩
  · simp [accepts, h.storable, h.ne_dots] at hrefuses
  · rw [hput]

/-- Records that can be archived are all taken. -/
theorem takes_stores (rs : List Record) (h : w.Stores kept)
    (harchivable : ∀ r ∈ rs, Archivable r.database)
    (hpayload : ∀ r ∈ rs, r.payload.size ≤ maxPayload) :
    ∃ w', consumer.Takes w rs w' ∧ w'.Stores (kept ++ rs) ∧ w'.compression = w.compression ∧
      w'.location = w.location := by
  obtain ⟨htakes, htaken⟩ := Consumer.takes_of_accepted consumer
    (fun r hr w => put_accepted w (harchivable r hr)) w
  obtain ⟨answers, w', hrun, -, hstores, hrest⟩ :=
    putAll_stores rs h (fun r hr => (harchivable r hr).ne_dot) hpayload
  rw [hrun] at htakes htaken
  rw [htaken] at hstores
  exact ⟨w', htakes, hstores, hrest⟩

theorem createWith_eq_ok {c : Compression} {path : Path} {files files' : Files}
    (h : createWith c path files = (.ok w, files')) :
    ∃ fs : Files, fs.create path = .ok (w.location, files') ∧ w.compression = c ∧
      w.blocks = .empty ∧ w.written = 0 := by
  unfold createWith at h
  split at h
  · cases h
  rename_i fs _
  split at h
  · cases h
  rename_i location files'' hcreate
  obtain ⟨hw, rfl⟩ := Prod.mk.inj h
  obtain rfl := Except.ok.inj hw
  exact ⟨fs, hcreate, rfl, rfl, rfl⟩

end Writer

/-! ## Counts -/

/-- The counts are those of the records, with one pair for each database there is. -/
structure Tally (counts : List (String × Nat)) (rs : List Record) : Prop where
  distinct : (counts.map (·.1)).Nodup
  count : ∀ name, counts.lookup name = match rs.countP (·.database = name) with
    | 0 => none
    | n + 1 => some (n + 1)

theorem keys_addCount (name : String) (counts : List (String × Nat)) (other : String) :
    other ∈ (addCount name counts).map (·.1) ↔ other = name ∨ other ∈ counts.map (·.1) := by
  induction counts with
  | nil => simp [addCount]
  | cons p counts ih =>
    obtain ⟨x, k⟩ := p
    simp only [addCount]
    split
    · rename_i he
      simp [he]
    · simp only [List.map_cons, List.mem_cons, ih]
      exact or_left_comm

theorem nodup_addCount {counts : List (String × Nat)} (h : (counts.map (·.1)).Nodup)
    (name : String) : ((addCount name counts).map (·.1)).Nodup := by
  induction counts with
  | nil => simp [addCount]
  | cons p counts ih =>
    obtain ⟨x, k⟩ := p
    obtain ⟨hx, hrest⟩ := List.nodup_cons.mp h
    simp only [addCount]
    split
    · exact h
    · rename_i hne
      refine List.nodup_cons.mpr ⟨fun hm => ?_, ih hrest⟩
      rcases (keys_addCount name counts x).mp hm with he | hm
      · exact hne he
      · exact hx hm

/-- One more for a name, as many as before for the others. -/
theorem lookup_addCount (name : String) (counts : List (String × Nat)) (other : String) :
    (addCount name counts).lookup other
      = if other = name then some ((counts.lookup name).getD 0 + 1) else counts.lookup other := by
  by_cases he : other = name
  · subst he
    rw [if_pos rfl]
    induction counts with
    | nil => simp [addCount]
    | cons p counts ih =>
      obtain ⟨x, k⟩ := p
      by_cases hx : x = other
      · simp [addCount, hx]
      · have hne : (other == x) = false := by simpa using Ne.symm hx
        simp [addCount, hx, List.lookup_cons, hne, ih]
  · have hne : (other == name) = false := by simpa using he
    rw [if_neg he]
    induction counts with
    | nil => simp [addCount, List.lookup_cons, hne]
    | cons p counts ih =>
      obtain ⟨x, k⟩ := p
      by_cases hx : x = name
      · simp [addCount, hx, List.lookup_cons, hne]
      · simp [addCount, hx, List.lookup_cons, ih]

theorem Tally.addCount {counts : List (String × Nat)} {rs : List Record} (h : Tally counts rs)
    (r : Record) : Tally (addCount r.database counts) (rs ++ [r]) := by
  refine ⟨nodup_addCount h.distinct _, fun name => ?_⟩
  rw [lookup_addCount, List.countP_append, List.countP_singleton]
  by_cases he : name = r.database
  · have hbefore : (counts.lookup r.database).getD 0 = rs.countP (·.database = r.database) := by
      rw [h.count]
      generalize rs.countP _ = n
      cases n <;> rfl
    simp [he, hbefore]
  · simp [he, Ne.symm he, h.count]

theorem tally_foldl (rs : List Record) :
    Tally (rs.foldl (fun counts r => addCount r.database counts) []) rs := by
  -- on the records to come, those done being counted
  suffices h : ∀ (counts : List (String × Nat)) (done : List Record), Tally counts done →
      Tally (rs.foldl (fun counts r => Archive.addCount r.database counts) counts) (done ++ rs) by
    exact h [] [] ⟨List.nodup_nil, by simp⟩
  induction rs with
  | nil => simp
  | cons r rs ih =>
    intro counts done h
    rw [List.foldl_cons, List.append_cons]
    exact ih _ _ (h.addCount r)

/-! ## Reading -/

/-- The file at the path is an archive of these records: opened with any filter, it is read from
before them on. -/
def Archived (files : Files) (path : Path) (kept : List Record) : Prop :=
  ∀ filter, ∃ c, open? files path filter = .ok c ∧ c.Holds kept ∧ c.filter = filter

variable {w : Writer} {kept : List Record} {files : Files} {path : Path}

/-- The bytes of a finished file are read as the members that the blocks are read as. -/
theorem Writer.read_bytes {members : List Tar.Member} (h : Tar.ReadsAs w.blocks members)
    (codec : ∀ bytes, w.compression.unwrap (w.compression.wrap bytes) = ⟨bytes, false⟩)
    (hsize : (w.blocks ++ Tar.trailer).size < Tar.sizeBound) :
    Tar.read (w.compression.unwrap w.bytes) = ⟨members, false⟩ := by
  simp only [Writer.bytes, codec, h.read hsize]

/-- A finished file is loaded as the members that the blocks are read as. -/
theorem load_finished {members : List Tar.Member} (h : Tar.ReadsAs w.blocks members) {fs : Files}
    (hcreate : fs.create path = .ok (w.location, files))
    (hpath : Compression.ofPath path = w.compression)
    (codec : ∀ bytes, w.compression.unwrap (w.compression.wrap bytes) = ⟨bytes, false⟩)
    (hsize : (w.blocks ++ Tar.trailer).size < Tar.sizeBound) :
    load (w.finish files).2 path = .ok ⟨members, false⟩ := by
  have hfile : (w.finish files).2.node path = .ok (.file w.bytes) := Files.node_store hcreate _
  rw [load, hfile]
  simp only [hpath, Writer.read_bytes h codec hsize]

/-- What a writer has stored is in its file once that is finished. -/
theorem archived_of_stores (h : w.Stores kept) {fs : Files}
    (hcreate : fs.create path = .ok (w.location, files))
    (hpath : Compression.ofPath path = w.compression)
    (codec : ∀ bytes, w.compression.unwrap (w.compression.wrap bytes) = ⟨bytes, false⟩)
    (hsize : (w.blocks ++ Tar.trailer).size < Tar.sizeBound) :
    Archived (w.finish files).2 path kept := by
  intro filter
  obtain ⟨members, hmembers, hkept⟩ := h.blocks
  have hload := load_finished hmembers hcreate hpath codec hsize
  exact ⟨.ofContents ⟨members, false⟩ filter, by rw [open?, hload]; rfl,
    ⟨⟨hkept, rfl, rfl, rfl, Or.inl rfl⟩, rfl⟩, rfl⟩

theorem Archived.records (h : Archived files path kept) (filter : Option (List String)) :
    records files path filter = .ok (kept.filter (passes filter ·.database), none) := by
  obtain ⟨c, hopen, hc, rfl⟩ := h filter
  rw [Archive.records, hopen]
  refine congrArg Except.ok (hc.drain _ ?_)
  rw [Cursor.drainLimit]
  omega

theorem Archived.records_all (h : Archived files path kept) :
    Archive.records files path none = .ok (kept, none) := by
  have hall : kept.filter (passes none ·.database) = kept :=
    List.filter_eq_self.mpr fun _ _ => rfl
  rw [h.records none, hall]

/-- The counts are of every record in the archive. -/
theorem Archived.databaseCounts (h : Archived files path kept) :
    ∃ counts, databaseCounts files path = .ok counts ∧ Tally counts kept :=
  ⟨_, by simp only [Archive.databaseCounts, h.records_all], tally_foldl kept⟩

theorem Archived.countRecords (h : Archived files path kept) (filter : Option (List String)) :
    ∃ total, countRecords files path filter = .ok total := by
  obtain ⟨counts, hcounts, -⟩ := h.databaseCounts
  exact ⟨_, by rw [Archive.countRecords, hcounts]; rfl⟩

/-- An archive of these records can be made at the path and read again. -/
structure Makeable (files : Files) (path : Path) (rs : List Record) : Prop where
  created : ∃ w files', Writer.create path files = (.ok w, files') ∧
    ((Writer.consumer.putAll rs w).2.blocks ++ Tar.trailer).size < Tar.sizeBound
  codec : ∀ bytes, (Compression.ofPath path).unwrap ((Compression.ofPath path).wrap bytes)
    = ⟨bytes, false⟩
  names : ∀ r ∈ rs, Writer.Archivable r.database
  payloads : ∀ r ∈ rs, r.payload.size ≤ maxPayload

/-- Where relative paths start, a file can be created if there is nothing else. -/
theorem createWith_new (c : Compression) (name : String) (hcomponents : path.components = [name])
    (habsolute : path.isAbsolute = false) (hempty : path.text.isEmpty = false)
    (hslash : path.endsWithSlash = false) (hname : name ∉ ["..", "/"]) :
    Writer.createWith c path {} = (.ok { path, location := [name], compression := c },
      ({} : Files).set [name] (.file .empty)) := by
  obtain ⟨hup, hroot⟩ : name ≠ ".." ∧ name ≠ "/" := by simpa using hname
  have hparents : ({} : Files).makeParents path = .ok {} := by
    simp [Files.makeParents, hcomponents, Files.makeFrom]
  have hcreate : ({} : Files).create path
      = .ok ([name], ({} : Files).set [name] (.file .empty)) := by
    simp [Files.create, Files.resolve, Files.resolveFrom, Files.at?, Files.start, hcomponents,
      habsolute, hempty, hslash, hup, hroot]
  simp only [Writer.createWith, hparents, hcreate]

/-- An archive that is not compressed can be made where a file can be created. -/
theorem makeable_plain (name : String) (rs : List Record)
    (hplain : Compression.ofPath path = .plain) (hcomponents : path.components = [name])
    (habsolute : path.isAbsolute = false) (hempty : path.text.isEmpty = false)
    (hslash : path.endsWithSlash = false) (hname : name ∉ ["..", "/"])
    (hsize : ((Writer.consumer.putAll rs
      { path, location := [name], compression := .plain }).2.blocks ++ Tar.trailer).size
        < Tar.sizeBound)
    (hnames : ∀ r ∈ rs, Writer.Archivable r.database)
    (hpayloads : ∀ r ∈ rs, r.payload.size ≤ maxPayload) : Makeable {} path rs := by
  have hcreated := createWith_new (Compression.ofPath path) name hcomponents habsolute hempty hslash
    hname
  rw [hplain] at hcreated
  refine ⟨⟨_, _, by rw [Writer.create, hplain, hcreated], hsize⟩, fun bytes => ?_, hnames,
    hpayloads⟩
  rw [hplain]
  rfl

theorem Makeable.archived {rs : List Record} (h : Makeable files path rs) :
    ∃ w files' w', Writer.create path files = (.ok w, files') ∧ Writer.consumer.Takes w rs w' ∧
      Archived (w'.finish files').2 path rs := by
  obtain ⟨w, files', hcreated, hsize⟩ := h.created
  obtain ⟨fs, hcreate, hc, hblocks, hzero⟩ := Writer.createWith_eq_ok hcreated
  obtain ⟨w', htakes, hstores, hcompression, hlocation⟩ :=
    Writer.takes_stores rs (Writer.stores_empty hblocks hzero) h.names h.payloads
  rw [htakes.putAll] at hsize
  have hpath : Compression.ofPath path = w'.compression := (hcompression.trans hc).symm
  exact ⟨w, files', w', hcreated, htakes,
    archived_of_stores hstores (hlocation ▸ hcreate) hpath (hpath ▸ h.codec) hsize⟩

/-- **Round trip.**  Whatever records are put into a new archive, one after another, those are taken
whose database is accepted, whether or not others are refused.  The finished file is read as those
that were taken, in their order and to a sound end; with a filter it is read as those of them whose
database is in the filter, and what it counts is how many of them each database has. -/
theorem records_of_written {c : Compression} {path : Path} (extension : Compression.ofPath path = c)
    (codec : ∀ bytes, c.unwrap (c.wrap bytes) = ⟨bytes, false⟩) {files files₁ : Files} {w : Writer}
    (created : Writer.createWith c path files = (.ok w, files₁)) (rs : List Record)
    (payloads : ∀ r ∈ rs, r.payload.size ≤ maxPayload) (names : ∀ r ∈ rs, r.database ≠ ".")
    (size : ((Writer.consumer.putAll rs w).2.blocks ++ Tar.trailer).size < Tar.sizeBound) :
    let (answers, w') := Writer.consumer.putAll rs w
    let kept := Consumer.taken rs answers
    let (count, files₂) := w'.finish files₁
    kept = rs.filter (Writer.accepts ·.database) ∧ count = kept.length ∧ w'.written = kept.length ∧
    records files₂ path none = .ok (kept, none) ∧
    (∀ names, records files₂ path (some names)
      = .ok (kept.filter fun r => names.contains r.database, none)) ∧
    ∃ counts, databaseCounts files₂ path = .ok counts ∧ Tally counts kept := by
  obtain ⟨fs, hcreate, hc, hblocks, hzero⟩ := Writer.createWith_eq_ok created
  obtain ⟨answers, w', hrun, htaken, hstores, hcompression, hlocation⟩ :=
    Writer.putAll_stores rs (Writer.stores_empty hblocks hzero) names payloads
  rw [hrun] at size ⊢
  rw [List.nil_append] at hstores
  have hc' : w'.compression = c := hcompression.trans hc
  have harchived := archived_of_stores hstores (hlocation ▸ hcreate) (extension.trans hc'.symm)
    (by rw [hc']; exact codec) size
  exact ⟨htaken, hstores.written, hstores.written, harchived.records_all,
    fun names => harchived.records (some names), harchived.databaseCounts⟩

/-- Of two memos, a task and a record that no archive can name, the last is refused.  The other
three are counted and read, the task alone where tasks are asked for. -/
theorem records_of_written_refusing :
    let path : Path := ⟨"backup.tar"⟩
    let w : Writer := { path, location := ["backup.tar"], compression := .plain }
    let task : Record := ⟨"Tasks", 5, 0, ⟨#[4]⟩⟩
    let rs : List Record :=
      [⟨"Memos", 7, 0, ⟨#[1, 2]⟩⟩, ⟨"a/b", 8, 0, ⟨#[3]⟩⟩, task, ⟨"Memos", 9, 1, ⟨#[]⟩⟩]
    let kept : List Record := [⟨"Memos", 7, 0, ⟨#[1, 2]⟩⟩, task, ⟨"Memos", 9, 1, ⟨#[]⟩⟩]
    let (answers, w') := Writer.consumer.putAll rs w
    let (count, files) := w'.finish (({} : Files).set ["backup.tar"] (.file .empty))
    Consumer.taken rs answers = kept ∧ count = 3 ∧ w'.written = 3 ∧
    records files path none = .ok (kept, none) ∧
    records files path (some ["Tasks"]) = .ok ([task], none) ∧
    ∃ counts, databaseCounts files path = .ok counts ∧ Tally counts kept := by
  intro path w task rs kept
  have hcomponents : path.components = ["backup.tar"] := by decide +kernel
  have created := createWith_new .plain "backup.tar" hcomponents (by decide +kernel)
    (by decide +kernel) (by decide +kernel) (by decide +kernel)
  have hwritten := records_of_written (by decide +kernel : Compression.ofPath path = .plain)
    (fun _ => rfl) created rs (by decide) (by decide) (by decide +kernel)
  obtain ⟨hkept, hcount, hw, hall, hsome, hcounts⟩ := hwritten
  have haccepted : rs.filter (Writer.accepts ·.database) = kept := by decide +kernel
  rw [haccepted] at hkept
  rw [hkept] at hcount hw hall hsome hcounts
  exact ⟨hkept, hcount, hw, hall, hsome ["Tasks"], hcounts⟩

end Palmtop.Archive
