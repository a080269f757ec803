import Palmtop.Proofs.Archive.GivenBack
import Palmtop.Proofs.Archive.Skipping
import Palmtop.Proofs.Device.Gathering
import Palmtop.Proofs.Migration.Accounts

/-! # What is in the archive

As long as nobody else writes files, the finished archive holds just the records that it accepted, in
their order, which is database by database where the source is a proper device (`Run.Filed`).  So a
restore that gives up a database never comes back to it, and no database is skipped twice.

The invariant goes by how far the migration is (`Run.KeepsArchive`).  Files may get lost on the way,
or may not: what is said of them is said for both at once (`Files.Thins`).
-/
namespace Palmtop.Archive

/-- The records can be stored in an archive at this path and read back. -/
structure Fits (path : Path) (kept : List Record) : Prop where
  codec : ∀ bytes, (Compression.ofPath path).unwrap ((Compression.ofPath path).wrap bytes)
    = ⟨bytes, false⟩
  size : (kept.map Writer.room).sum + 2 * Tar.blockSize < Tar.sizeBound

theorem Fits.of_append {path : Path} {kept more : List Record} (h : Fits path (kept ++ more)) :
    Fits path kept := by
  refine ⟨h.codec, Nat.lt_of_le_of_lt (Nat.add_le_add_right ?_ _) h.size⟩
  rw [List.map_append, List.sum_append]
  exact Nat.le_add_right _ _

/-- An archive of these records was finished at the path, and is there unless the file was lost. -/
def Remains (lost : Prop) (path : Path) (files : Files) (kept : List Record) : Prop :=
  ∃ (full : Files) (bytes : ByteArray) (members : List Tar.Member),
    full.node path = .ok (.file bytes) ∧
    Tar.read ((Compression.ofPath path).unwrap bytes) = ⟨members, false⟩ ∧
    List.Forall₂ Writer.Stored members kept ∧ full.Thins lost files

variable {lost : Prop} {path : Path} {files files' : Files} {kept : List Record}

theorem Remains.thins (h : Remains lost path files kept) (hthins : files.Thins lost files') :
    Remains lost path files' kept := by
  obtain ⟨full, bytes, members, hnode, hread, hstored, hfull⟩ := h
  exact ⟨full, bytes, members, hnode, hread, hstored, hfull.trans hthins⟩

/-- What remains is loaded as the members of the records. -/
theorem Remains.load (h : Remains lost path files kept) :
    (∃ members, load files path = .ok ⟨members, false⟩ ∧
      List.Forall₂ Writer.Stored members kept) ∨
    lost ∧ load files path = .error (.notFound path) := by
  obtain ⟨full, bytes, members, hnode, hread, hstored, hfull⟩ := h
  rcases hfull.node_eq hnode with hthere | ⟨hlost, hgone⟩
  · refine Or.inl ⟨members, ?_, hstored⟩
    rw [Archive.load, hthere]
    simp only [hread]
  · refine Or.inr ⟨hlost, ?_⟩
    rw [Archive.load, hgone]

/-- A writer that has stored records in a new archive leaves them behind when it is finished, unless
the file was lost in the meantime. -/
theorem Fits.finish (h : Fits path kept) {w w' : Writer} {fs : Files}
    (created : Writer.create path fs = (.ok w, files)) (stores : w.Extends w' kept)
    (thins : files.Thins lost files') : Remains lost path (w'.finish files').2 kept := by
  obtain ⟨fs', hcreate, hcompression, hempty, -⟩ := Writer.createWith_eq_ok created
  obtain ⟨blocks, members, hblocks, hreads, hstored, hroom⟩ := stores.blocks
  rw [hempty, ByteArray.empty_append] at hblocks
  have hc : w'.compression = .ofPath path := stores.compression.trans hcompression
  rw [← stores.location] at hcreate
  obtain ⟨full, hnode, hthins⟩ := thins.store hcreate w'.bytes
  have hsize : (w'.blocks ++ Tar.trailer).size < Tar.sizeBound := by
    rw [ByteArray.size_append, Tar.size_trailer, hblocks]
    exact Nat.lt_of_le_of_lt (Nat.add_le_add_right hroom _) h.size
  refine ⟨full, w'.bytes, members, hnode, ?_, hstored, hthins⟩
  rw [← hc]
  exact Writer.read_bytes (hblocks ▸ hreads) (by rw [hc]; exact h.codec) hsize

end Palmtop.Archive

namespace Palmtop.Migration

open Archive (Fits)

/-- Others plug in proper devices only and write no files; whether they remove some is told. -/
structure Turn.Fair (lost : Prop) (t : Turn) : Prop where
  unwritten : t.writesFile = false
  removed : t.removesFile = true → lost
  newcomers : ∀ info d, t = .incident (.plugIn info d) → d.Proper

namespace Run

variable {r r' : Run} {lost : Prop} {kept : List Record} {refusals : Device.Bus.Refusals} {t : Turn}

/-! ## What others do to files and devices -/

theorem files_changeDevice (r : Run) (n : Nat) (change : Device → Device) :
    (Incident.changeDevice r n change).files = r.files := by
  unfold Incident.changeDevice
  split
  · rfl
  · rfl

theorem length_changeDevice (r : Run) (n : Nat) (change : Device → Device) :
    (Incident.changeDevice r n change).bus.devices.length = r.bus.devices.length := by
  unfold Incident.changeDevice
  split
  · exact List.length_set
  · rfl

theorem bus_changeFiles (r : Run) (change : Files → Except FileError Files) :
    (Incident.changeFiles r change).bus = r.bus := by
  unfold Incident.changeFiles
  split
  · rfl
  · rfl

theorem receive_alike (r : Run) (reply : Option Reply) :
    (r.receive reply).files = r.files ∧ (r.receive reply).bus = r.bus := by
  unfold receive answerPassword answerDestination decline
  repeat' split
  all_goals exact ⟨rfl, rfl⟩

/-- Others who write no files leave those that there are, or remove them. -/
theorem thins_turn (r : Run) (fair : t.Fair lost) (ht : ∀ refusals, t ≠ .work refusals) :
    r.files.Thins lost (r.turn t).files := by
  cases t with
  | work refusals => exact absurd rfl (ht refusals)
  | reply reply =>
    rw [turn, (r.receive_alike _).1]
    exact Files.thins_self lost r.files
  | leave => exact Files.thins_self lost r.files
  | incident incident =>
    cases incident with
    | cancel | unplug | plugIn => exact Files.thins_self lost r.files
    | breakLink | refuseTable =>
      rw [turn, suffer, files_changeDevice]
      exact Files.thins_self lost r.files
    | writeFile => cases fair.unwritten
    | removeFile path =>
      rw [turn, suffer, Incident.changeFiles]
      split
      · rename_i hremove
        exact Files.thins_remove (fair.removed rfl) hremove
      · exact Files.thins_self lost r.files

/-- No device hears of a change, and where all were proper, all are. -/
structure Calm (bus bus' : Device.Bus) : Prop where
  quiet : ∃ news, bus.Hears news bus' ∧ ∀ n, ∀ e ∈ news n, e.command.isMutation = false
  proper : (∀ d ∈ bus.devices, d.Proper) → ∀ d ∈ bus'.devices, d.Proper

theorem Hushed.calm {bus bus' : Device.Bus} (h : Hushed bus bus') : Calm bus bus' := by
  obtain ⟨⟨news, hears, hquiet⟩, hlength⟩ := h
  refine ⟨⟨news, hears, hquiet⟩, fun hproper d' hd' => ?_⟩
  obtain ⟨n, hn⟩ := List.getElem?_of_mem hd'
  have hlt : n < bus.devices.length := hlength ▸ (List.getElem?_eq_some_iff.mp hn).1
  obtain ⟨d'', hd'', hheard⟩ := hears.devices n _ (List.getElem?_eq_getElem hlt)
  obtain rfl : d'' = d' := Option.some.inj (hd''.symm.trans hn)
  exact hheard.proper (hquiet n) (hproper _ (List.getElem_mem hlt))

/-- Others disturb no device, and bring proper ones only. -/
theorem calm_turn (newcomers : ∀ info d, t = .incident (.plugIn info d) → d.Proper)
    (ht : ∀ refusals, t ≠ .work refusals) (hstirs : r.Stirs (r.turn t)) :
    Calm r.bus (r.turn t).bus := by
  have hstays (hlength : (r.turn t).bus.devices.length = r.bus.devices.length) :
      Calm r.bus (r.turn t).bus := (hushed_of_hears hstirs.bus hlength).calm
  cases t with
  | work refusals => exact absurd rfl (ht refusals)
  | reply reply => exact hstays (by rw [turn, (r.receive_alike _).2])
  | leave => exact hstays rfl
  | incident incident =>
    cases incident with
    | cancel | unplug => exact hstays rfl
    | breakLink | refuseTable => exact hstays (length_changeDevice r _ _)
    | writeFile | removeFile => exact hstays (by rw [turn, suffer, bus_changeFiles])
    | plugIn info d =>
      refine ⟨⟨_, hstirs.bus, fun _ => List.forall_mem_nil _⟩, fun hproper d' hd' => ?_⟩
      rcases List.mem_append.mp hd' with hd' | hd'
      · exact hproper d' hd'
      · exact List.mem_singleton.mp hd' ▸ newcomers info d rfl

/-- A worker that is not restoring disturbs no device. -/
theorem Moves.calm (h : r.Moves (Device.Bus.sessionsWith refusals) r')
    (hr : ∀ x, r.stage.progress ≠ .restoring x) : Calm r.bus r'.bus := by
  rcases h.heard with ⟨hushed, -⟩ | ⟨x, -, hx, -⟩
  · exact hushed.calm
  · exact absurd (by rw [hx]; rfl) (hr x)

/-! ## The archive -/

/-- The archive under way holds the records, which follow one another database by database. -/
structure BacksUp (lost : Prop) (r : Run) (b : Backup) (kept : List Record) : Prop where
  file : ∃ (w : Archive.Writer) (fs files : Files),
    Archive.Writer.create r.plan.archivePath fs = (.ok w, files) ∧ w.Extends b.writer kept ∧
    files.Thins lost r.files
  source : ∃ d, d.Proper ∧ r.bus.Holds b.connection d ∧ Device.Reader.Gathers d b.reader kept

/-- The finished archive holds the records, unless it was lost. -/
structure Filed (lost : Prop) (r : Run) (kept : List Record) : Prop where
  grouped : Grouped kept
  file : Archive.Remains lost r.plan.archivePath r.files kept

/-- What there is of the archive and of what was skipped, by how far the run is. -/
def KeepsArchive (lost : Prop) (r : Run) (kept : List Record) : Prop :=
  match r.stage.progress with
  | .before => ∀ d ∈ r.bus.devices, d.Proper
  | .backingUp b => r.BacksUp lost b kept
  | .failing _ => True
  | .between => r.Filed lost kept
  | .restoring x => r.Filed lost kept ∧ x.cursor.Skips r.report.skipped
  | .ended => (∀ p, r.report.archivePath = some p → r.Filed lost kept) ∧ r.report.skipped.Nodup

theorem Filed.of_thins (h : r.Filed lost kept) (hplan : r'.plan = r.plan)
    (hthins : r.files.Thins lost r'.files) : r'.Filed lost kept := by
  refine ⟨h.grouped, ?_⟩
  rw [hplan]
  exact h.file.thins hthins

theorem BacksUp.of_calm {b : Backup} (h : r.BacksUp lost b kept) (hplan : r'.plan = r.plan)
    (hthins : r.files.Thins lost r'.files) (hcalm : Calm r.bus r'.bus) :
    r'.BacksUp lost b kept := by
  obtain ⟨⟨w, fs, files, created, hextends, hfiles⟩, d, hd, hholds, hgathers⟩ := h
  obtain ⟨news, hears, hquiet⟩ := hcalm.quiet
  refine ⟨⟨w, fs, files, ?_, hextends, hfiles.trans hthins⟩, d, hd, hholds.of_hears hears hquiet,
    hgathers⟩
  rw [hplan]
  exact created

/-- The archive goes on with what the source hands out. -/
theorem BacksUp.next {b : Backup} {answer : Option Record} {reader : Device.Reader}
    {writer : Archive.Writer} (h : r.BacksUp lost b kept) (hplan : r'.plan = r.plan)
    (hfiles : r'.files = r.files)
    (read : b.reader.next (Device.Bus.sessionsWith refusals b.connection) r.bus
      = (.ok answer, reader, r'.bus))
    (stores : b.writer.Extends writer answer.toList) (processed : Nat) :
    r'.BacksUp lost { b with reader, writer, processed } (kept ++ answer.toList) := by
  obtain ⟨⟨w, fs, files, created, hextends, hthins⟩, d, hd, hholds, hgathers⟩ := h
  obtain ⟨hheld, hgathered⟩ := hgathers.next hd hholds read
  refine ⟨⟨w, fs, files, ?_, hextends.trans stores, ?_⟩, d, hd, hheld, hgathered⟩
  · rw [hplan]
    exact created
  · rw [hfiles]
    exact hthins

/-- A run that gets no further keeps what it keeps. -/
theorem KeepsArchive.stays (h : r.KeepsArchive lost kept) (hplan : r'.plan = r.plan)
    (hprogress : r'.stage.progress = r.stage.progress) (hreport : r'.report = r.report)
    (hthins : r.files.Thins lost r'.files)
    (hcalm : (∀ x, r.stage.progress ≠ .restoring x) → Calm r.bus r'.bus) :
    r'.KeepsArchive lost kept := by
  unfold KeepsArchive at h ⊢
  rw [hprogress, hreport]
  generalize r.stage.progress = p at h hcalm
  cases p with
  | before => exact (hcalm fun _ hx => by cases hx).proper h
  | backingUp b => exact h.of_calm hplan hthins (hcalm fun _ hx => by cases hx)
  | failing => trivial
  | between => exact h.of_thins hplan hthins
  | restoring x => exact ⟨h.1.of_thins hplan hthins, h.2⟩
  | ended => exact ⟨fun p hp => (h.1 p hp).of_thins hplan hthins, h.2⟩

/-- The archive that is loaded for a restore holds the records. -/
theorem Filed.skips {present : List String} {total : Nat} {cursor cursor' : Archive.Cursor}
    {database : Option String} (h : r.Filed lost kept)
    (archive : r.openArchive present = .ok (total, cursor))
    (peeked : cursor.peek = (.ok database, cursor')) : cursor'.Skips [] := by
  unfold openArchive Archive.open? at archive
  split at archive
  · cases archive
  rcases h.file.load with ⟨members, hload, hstored⟩ | ⟨-, hgone⟩
  · rw [hload] at archive
    obtain ⟨-, rfl⟩ := Prod.mk.inj (Except.ok.inj archive)
    exact Archive.Cursor.skips_of_peek (h.grouped.sublist List.filter_sublist)
      (Archive.Cursor.databases_of_stored hstored) rfl peeked
  · rw [hgone] at archive
    cases archive

theorem Moves.keepsArchive (h : r.Moves (Device.Bus.sessionsWith refusals) r')
    (hfits : Fits r.plan.archivePath kept) (haccounts : r.Accounts kept)
    (hr : r.KeepsArchive lost kept) :
    r'.KeepsArchive lost (kept ++ (r.archives? (Device.Bus.sessionsWith refusals)).toList) := by
  have hplan := h.plan
  have hthins (hfiles : r'.files = r.files) : r.files.Thins lost r'.files :=
    hfiles ▸ Files.thins_self lost r.files
  have hcalm := h.calm
  cases h.progresses with
  | stays progress report files archived =>
    rw [append_archives? archived]
    exact hr.stays hplan progress report (hthins files) hcalm
  | stops idle progress report files archived =>
    rw [append_archives? archived]
    unfold KeepsArchive Accounts at *
    rw [progress]
    dsimp only
    rw [report]
    generalize r.stage.progress = p at hr haccounts idle files
    cases p with
    | before =>
      rw [haccounts.1]
      exact ⟨nofun, List.nodup_nil⟩
    | backingUp | failing => cases idle
    | between =>
      rw [haccounts.2]
      exact ⟨fun _ _ => hr.of_thins hplan (hthins (files.resolve_left nofun)), List.nodup_nil⟩
    | restoring x =>
      exact ⟨fun _ _ => hr.1.of_thins hplan (hthins (files.resolve_left nofun)), hr.2.nodup⟩
    | ended =>
      exact ⟨fun p hp => (hr.1 p hp).of_thins hplan (hthins (files.resolve_left nofun)), hr.2⟩
  | opensBackup before progress catalog reader fresh created report archived =>
    rw [KeepsArchive, before] at hr
    rw [Accounts, before] at haccounts
    rw [archived, haccounts.2, KeepsArchive, progress]
    obtain ⟨d, hd, hholds, hentries⟩ := Device.Bus.holds_of_catalog catalog
    have hproper : d.Proper := (hcalm fun _ hx => by cases before.symm.trans hx).proper hr d hd
    refine ⟨⟨_, r.files, r'.files, ?_, .refl _, Files.thins_self lost _⟩, d, hproper, hholds, ?_⟩
    · rw [hplan]
      exact created
    · rw [reader, hentries, Device.names_listing]
      exact Device.Reader.gathers_ofNames d hproper.names
  | passes before progress read report files archived =>
    rw [KeepsArchive, before] at hr
    rw [archived, KeepsArchive, progress]
    exact hr.next hplan files read (.refl _) _
  | @archives b reader record writer before progress read put report files archived =>
    rw [KeepsArchive, before] at hr
    rw [archived, KeepsArchive, progress]
    exact hr.next hplan files read (Archive.Writer.extends_of_put put) _
  | fails before progress processed report archived =>
    rw [KeepsArchive, progress]
    trivial
  | closes stage progress report files archived =>
    rw [KeepsArchive, stage] at hr
    obtain ⟨⟨w, fs, left, created, hextends, hleft⟩, d, -, -, hgathers⟩ := hr
    rw [append_archives? archived, KeepsArchive, progress]
    refine ⟨hgathers.grouped, ?_⟩
    rw [hplan, files]
    exact hfits.finish created hextends hleft
  | breaksOff before progress report archived =>
    rw [Accounts, before] at haccounts
    rw [KeepsArchive, progress]
    dsimp only
    rw [report, haccounts.1]
    exact ⟨nofun, List.nodup_nil⟩
  | opensRestore before progress catalog archive peeked fresh report files archived =>
    rw [KeepsArchive, before] at hr
    rw [Accounts, before] at haccounts
    rw [append_archives? archived, KeepsArchive, progress]
    dsimp only
    rw [report, haccounts.2]
    exact ⟨hr.of_thins hplan (hthins files), hr.skips archive peeked⟩
  | @moves x x' answer before progress read same report files archived =>
    rw [KeepsArchive, before] at hr
    rw [append_archives? archived, KeepsArchive, progress]
    dsimp only
    rw [report]
    refine ⟨hr.1.of_thins hplan (hthins files), ?_⟩
    cases answer with
    | none => exact hr.2.next_none read
    | some record => exact (hr.2.next read).skips hr.2.nodup
  | givesUp before progress read skipped same report files archived =>
    rw [KeepsArchive, before] at hr
    rw [append_archives? archived, KeepsArchive, progress]
    dsimp only
    rw [report, skipped]
    exact ⟨hr.1.of_thins hplan (hthins files), (hr.2.next read).skip hr.2.nodup⟩

theorem KeepsArchive.turn (h : r.KeepsArchive lost kept) (haccounts : r.Accounts kept)
    (hfits : Fits r.plan.archivePath kept) (fair : t.Fair lost) :
    (r.turn t).KeepsArchive lost (kept ++ (r.archivesAt? t).toList) := by
  rcases r.turn_cases t with ⟨refusals, rfl, hmoves⟩ | ⟨ht, hstirs⟩
  · exact hmoves.keepsArchive hfits haccounts h
  · rw [archivesAt?_of_ne_work ht, Option.toList_none, List.append_nil]
    exact h.stays hstirs.plan hstirs.progress hstirs.report (r.thins_turn fair ht)
      fun _ => calm_turn fair.newcomers ht hstirs

/-- Along fair turns, a run keeps in its archive what that accepts. -/
theorem KeepsArchive.after {turns : List Turn} (h : r.KeepsArchive lost kept)
    (haccounts : r.Accounts kept) (hfits : Fits r.plan.archivePath (kept ++ r.archived turns))
    (fair : ∀ t ∈ turns, t.Fair lost) :
    (r.after turns).KeepsArchive lost (kept ++ r.archived turns) := by
  induction turns generalizing r kept with
  | nil => exact (List.append_nil kept).symm ▸ h
  | cons t turns ih =>
    obtain ⟨hfair, hrest⟩ := List.forall_mem_cons.mp fair
    rw [archived, ← List.append_assoc] at hfits ⊢
    exact ih (h.turn haccounts hfits.of_append.of_append hfair) (haccounts.turn t)
      (by rwa [r.plan_turn t]) hrest

end Run

end Palmtop.Migration
