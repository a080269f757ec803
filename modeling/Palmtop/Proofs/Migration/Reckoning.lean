import Palmtop.Proofs.Archive.Counting
import Palmtop.Proofs.Archive.Outstanding
import Palmtop.Proofs.Migration.Announcing

/-! # Progress is sound

Whatever is refused on the way, whenever a migration is cancelled and whatever its block size is,
the counts that it shows in its two phases are sound (`Run.statuses_sound`): they rise by whole
blocks to what was moved, and if the phase comes to its end, the last one accounts for every record.

In the restore, the total comes from counting the archive, and the number processed from what the
destination takes; between them is what was abandoned (`Archive.Fares`).  The invariant goes by how
far the migration is (`Run.TalliesRestore`), as that of the backup does.
-/
namespace Palmtop.Migration

/-- Whether no restore was begun yet. -/
def Progress.awaitsRestore : Progress → Bool
  | .restoring _ | .ended => false
  | .before | .backingUp _ | .failing _ | .between => true

namespace Run

open Archive (Fares takenOf refusedOf)

variable {r r' : Run} {cs last shown shown' : List Count} {t : Turn}
  {refusals : Device.Bus.Refusals} {puts : List (Record × Except Device.Error Unit)}
  {records abandoned left : List Record} {y : Record}
  {begun begun' : List Record → Prop}

/-! ## The restore -/

/-- Here begins the restore of these records: those in the archive that are of a database that the
device at the other end has. -/
def BeginsRestore (records : List Record) (r r' : Run) : Prop :=
  r.stage.progress = .between ∧ ∃ x n d all, r'.stage.progress = .restoring x ∧
    r'.bus.Drives x.connection n d ∧
    Archive.records r.files r.plan.archivePath none = .ok (all, none) ∧
    records = all.filter fun y => (d.databases.map (·.name)).contains y.database

/-- The restore of these records begins in the course of these turns. -/
def RestoreBegun (records : List Record) (r : Run) : List Turn → Prop
  | [] => False
  | t :: turns => r.BeginsRestore records (r.turn t) ∨ (r.turn t).RestoreBegun records turns

/-- The restore of these records was begun, and this is what became of them. -/
structure Delivers (r : Run) (cs : List Count) (puts : List (Record × Except Device.Error Unit))
    (begun : List Record → Prop) (records abandoned left : List Record) (last : List Count) :
    Prop where
  begun : begun records
  fares : Fares records puts abandoned left
  counts : Shows r.plan.blockSize records.length (takenOf puts).length last cs

/-- The databases skipped are those of the records that were refused. -/
def Skips (r : Run) (puts : List (Record × Except Device.Error Unit)) : Prop :=
  r.report.skipped = (refusedOf puts).map (·.database)

/-- The counts of the restore, by how far the run is. -/
def TalliesRestore (r : Run) (cs : List Count) (puts : List (Record × Except Device.Error Unit))
    (begun : List Record → Prop) : Prop :=
  match r.stage.progress with
  | .restoring x => ∃ records abandoned left, r.Delivers cs puts begun records abandoned left [] ∧
      x.cursor.Offers left ∧ x.total = records.length ∧
      x.processed = (takenOf puts).length ∧ r.Skips puts
  | .ended => (¬ r.Succeeds ∧ cs = [] ∧ puts = []) ∨
      (¬ r.Succeeds ∧ ∃ records abandoned left,
        r.Delivers cs puts begun records abandoned left []) ∨
      r.Succeeds ∧ r.Skips puts ∧ ∃ records abandoned, r.Delivers cs puts begun records abandoned []
        [⟨(takenOf puts).length, records.length⟩]
  | _ => cs = [] ∧ puts = [] ∧ r.report.skipped = []

theorem Delivers.imp (h : r.Delivers cs puts begun records abandoned left last)
    (hplan : r'.plan = r.plan) (hbegun : ∀ records, begun records → begun' records) :
    r'.Delivers cs puts begun' records abandoned left last :=
  ⟨hbegun _ h.begun, h.fares, hplan ▸ h.counts⟩

theorem Delivers.close (h : r.Delivers cs puts begun records abandoned left []) :
    r.Delivers (cs ++ [⟨(takenOf puts).length, records.length⟩]) puts begun records abandoned left
      [⟨(takenOf puts).length, records.length⟩] :=
  ⟨h.begun, h.fares, h.counts.close⟩

/-- One more record was put, and taken. -/
theorem Delivers.take (h : r.Delivers cs puts begun records abandoned (y :: left) []) :
    r.Delivers (cs ++ if ((takenOf puts).length + 1) % r.plan.blockSize = 0
        then [⟨(takenOf puts).length + 1, records.length⟩] else [])
      (puts ++ [(y, .ok ())]) begun records abandoned left [] := by
  have hlength := h.fares.take.length_eq
  rw [Archive.takenOf_take, List.length_append, List.length_singleton] at hlength
  refine ⟨h.begun, h.fares.take, ?_⟩
  rw [Archive.takenOf_take, List.length_append, List.length_singleton]
  exact h.counts.succ (by omega)

/-- One more record was put, and refused. -/
theorem Delivers.refuse (h : r.Delivers cs puts begun records abandoned (y :: left) [])
    (e : Device.Error) : ∃ abandoned', r.Delivers cs (puts ++ [(y, .error e)]) begun records
      abandoned' (left.dropWhile (·.database = y.database)) [] := by
  obtain ⟨abandoned', hfares⟩ := h.fares.refuse e
  refine ⟨abandoned', h.begun, hfares, ?_⟩
  rw [Archive.takenOf_refuse]
  exact h.counts

/-- What there is to tell of the restore as long as none is under way. -/
theorem talliesRestore_of_awaits (h : r.stage.progress.awaitsRestore = true) :
    r.TalliesRestore cs puts begun ↔ cs = [] ∧ puts = [] ∧ r.report.skipped = [] := by
  rw [TalliesRestore]
  cases hp : r.stage.progress with
  | restoring | ended =>
    rw [hp] at h
    cases h
  | before | backingUp | failing | between => exact Iff.rfl

/-- Short of a restore, there is nothing to tell of it. -/
theorem TalliesRestore.rests (h : r.TalliesRestore cs puts begun)
    (before : r.stage.progress.awaitsRestore = true)
    (progress : r'.stage.progress.awaitsRestore = true)
    (hskipped : r'.report.skipped = r.report.skipped) : r'.TalliesRestore cs puts begun' := by
  rw [talliesRestore_of_awaits progress, hskipped]
  exact (talliesRestore_of_awaits before).mp h

/-- Where a run gets no further, what there is to tell of the restore stays. -/
theorem TalliesRestore.stays (h : r.TalliesRestore cs puts begun) (hplan : r'.plan = r.plan)
    (hprogress : r'.stage.progress = r.stage.progress) (hsucceeds : r'.Succeeds ↔ r.Succeeds)
    (hskipped : r'.report.skipped = r.report.skipped)
    (hbegun : ∀ records, begun records → begun' records) : r'.TalliesRestore cs puts begun' := by
  unfold TalliesRestore at h ⊢
  rw [hprogress, hsucceeds, Skips, hskipped]
  split at h
  · obtain ⟨records, abandoned, left, hdelivers, hrest⟩ := h
    exact ⟨records, abandoned, left, hdelivers.imp hplan hbegun, hrest⟩
  · rcases h with h | ⟨hnot, records, abandoned, left, h⟩ | ⟨hdone, hskips, records, abandoned, h⟩
    · exact Or.inl h
    · exact Or.inr (Or.inl ⟨hnot, records, abandoned, left, h.imp hplan hbegun⟩)
    · exact Or.inr (Or.inr ⟨hdone, hskips, records, abandoned, h.imp hplan hbegun⟩)
  · exact h

/-- A run that comes to a premature end breaks off the restore, if there is one. -/
theorem TalliesRestore.stops (h : r.TalliesRestore cs puts begun) (hplan : r'.plan = r.plan)
    (hlive : r.stage.progress ≠ .ended) (hprogress : r'.stage.progress = .ended)
    (hincomplete : ¬ r'.Succeeds) (hbegun : ∀ records, begun records → begun' records) :
    r'.TalliesRestore cs puts begun' := by
  rw [TalliesRestore, hprogress]
  unfold TalliesRestore at h
  split at h
  · obtain ⟨records, abandoned, left, hdelivers, -⟩ := h
    exact Or.inr (Or.inl ⟨hincomplete, records, abandoned, left, hdelivers.imp hplan hbegun⟩)
  · rename_i hended
    exact absurd hended hlive
  · exact Or.inl ⟨hincomplete, h.1, h.2.1⟩

/-- The archive that is loaded for a restore offers those of its records that are counted. -/
theorem offers_of_openArchive {present : List String} {total : Nat}
    {cursor cursor' : Archive.Cursor} {database : Option String}
    (archive : r.openArchive present = .ok (total, cursor))
    (peeked : cursor.peek = (.ok database, cursor')) :
    ∃ all, Archive.records r.files r.plan.archivePath none = .ok (all, none) ∧
      (all.filter fun y => present.contains y.database).length = total ∧
      cursor'.Offers (all.filter fun y => present.contains y.database) ∧
      (database = none → (all.filter fun y => present.contains y.database) = []) := by
  unfold openArchive at archive
  split at archive
  · cases archive
  rename_i htotal
  obtain ⟨all, hall, hlength⟩ := Archive.countRecords_eq_iff.mp htotal
  cases hload : Archive.load r.files r.plan.archivePath with
  | error e =>
    rw [Archive.records, Archive.open?, hload] at hall
    cases hall
  | ok contents =>
    obtain ⟨hwhole, houtcomes⟩ := (Archive.records_eq_ok_iff hload).mp hall
    rw [Archive.open?, hload] at archive
    obtain ⟨rfl, rfl⟩ := Prod.mk.inj (Except.ok.inj archive)
    have hahead : contents.members.filterMap
        (Archive.Cursor.outcome (Archive.passes (some present)))
        = (all.filter fun y => present.contains y.database).map .ok :=
      Archive.Cursor.outcomes_filtered houtcomes
    exact ⟨all, hall, hlength,
      (Archive.Cursor.offers_ofContents hwhole hahead).peek rfl rfl peeked⟩

/-- A step puts the next of the records left, or comes to the end of them. -/
theorem Counts.talliesRestore
    (h : r.Counts (Device.Bus.sessionsWith refusals) r' shown shown') (hplan : r'.plan = r.plan)
    (hr : r.TalliesRestore cs puts begun) :
    r'.TalliesRestore (cs ++ shown')
      (puts ++ (r.puts? (Device.Bus.sessionsWith refusals)).toList)
      fun records => begun records ∨ r.BeginsRestore records r' := by
  have hmore : ∀ records, begun records → begun records ∨ r.BeginsRestore records r' :=
    fun _ => Or.inl
  -- nothing is put where no restore is under way
  have hidle (before : r.stage.progress.awaitsRestore = true) :
      puts ++ (r.puts? (Device.Bus.sessionsWith refusals)).toList = puts := by
    have hnone : ∀ x, r.stage.progress ≠ .restoring x := fun x hx => by
      rw [hx] at before
      cases before
    rw [puts?_of_progress hnone, Option.toList_none, List.append_nil]
  cases h with
  | stays progress succeeds skipped _ put =>
    rw [put, Option.toList_none, List.append_nil, List.append_nil]
    exact hr.stays hplan progress succeeds skipped hmore
  | stops live _ progress incomplete _ put =>
    rw [put, Option.toList_none, List.append_nil, List.append_nil]
    exact hr.stops hplan live progress incomplete hmore
  | opensBackup before progress _ _ _ _ skipped | passes before progress _ skipped
  | archives before progress _ skipped | fails before progress skipped =>
    have hbefore : r.stage.progress.awaitsRestore = true := by rw [before]; rfl
    rw [hidle hbefore, List.append_nil]
    exact hr.rests hbefore (by rw [progress]; rfl) skipped
  | closes stage progress skipped =>
    have hbefore : r.stage.progress.awaitsRestore = true := by rw [stage]; rfl
    rw [hidle hbefore, List.append_nil]
    exact hr.rests hbefore (by rw [progress]; rfl) skipped
  | @opensRestore _ _ x cursor database before progress catalog archive peeked fresh skipped =>
    have hbefore : r.stage.progress.awaitsRestore = true := by rw [before]; rfl
    rw [talliesRestore_of_awaits hbefore] at hr
    obtain ⟨rfl, rfl, hnone⟩ := hr
    rw [hidle hbefore, TalliesRestore, progress]
    obtain ⟨d, -, ⟨n, d', hdrives, hholdings⟩, hentries⟩ := Device.Bus.holds_of_catalog catalog
    rw [hentries, ← Device.listing_of_holdings hholdings, Device.names_listing] at archive
    obtain ⟨all, hall, htotal, hoffers, hempty⟩ := offers_of_openArchive archive peeked
    refine ⟨_, [], _, ⟨Or.inr ⟨before, x, n, d', all, progress, hdrives, hall, rfl⟩, .nil _, ?_⟩,
      hoffers, htotal.symm, fresh, skipped.trans hnone⟩
    rw [htotal]
    cases database with
    | none =>
      rw [← htotal, hempty rfl]
      exact .nil _
    | some database => exact .begun _ _
  | findsNone before progress read skipped put =>
    rw [TalliesRestore, before] at hr
    obtain ⟨records, abandoned, left, hdelivers, hoffers, htotal, hprocessed, hskips⟩ := hr
    rw [put, Option.toList_none, List.append_nil, List.append_nil, TalliesRestore, progress]
    obtain ⟨rfl, hend⟩ := hoffers.spent read
    exact ⟨records, abandoned, [], hdelivers.imp hplan hmore, hend, htotal, hprocessed,
      skipped.trans hskips⟩
  | puts before progress read skipped put =>
    rw [TalliesRestore, before] at hr
    obtain ⟨records, abandoned, left, hdelivers, hoffers, htotal, hprocessed, hskips⟩ := hr
    obtain ⟨later, rfl, htook⟩ := hoffers.took read
    rw [put, Option.toList_some, TalliesRestore, progress, hprocessed, htotal]
    refine ⟨records, abandoned, later, hdelivers.take.imp hplan hmore, htook.toOffers, rfl, ?_, ?_⟩
    · rw [Archive.takenOf_take, List.length_append, List.length_singleton]
    · rw [Skips, Archive.refusedOf_take, skipped]
      exact hskips
  | givesUp before progress read skipped put =>
    rw [TalliesRestore, before] at hr
    obtain ⟨records, abandoned, left, hdelivers, hoffers, htotal, hprocessed, hskips⟩ := hr
    obtain ⟨later, rfl, htook⟩ := hoffers.took read
    rw [put, Option.toList_some, List.append_nil, TalliesRestore, progress]
    obtain ⟨abandoned', hrefused⟩ := hdelivers.refuse _
    refine ⟨records, abandoned', _, hrefused.imp hplan hmore, htook.skip, htotal, ?_, ?_⟩
    · rw [Archive.takenOf_refuse]
      exact hprocessed
    · rw [Skips, Archive.refusedOf_refuse, List.map_append, skipped, hskips]
      rfl
  | putsNot before progress incomplete read put =>
    rw [TalliesRestore, before] at hr
    obtain ⟨records, abandoned, left, hdelivers, hoffers, -⟩ := hr
    obtain ⟨later, rfl, htook⟩ := hoffers.took read
    rw [put, Option.toList_some, List.append_nil, TalliesRestore, progress]
    obtain ⟨abandoned', hrefused⟩ := hdelivers.refuse _
    exact Or.inr (Or.inl ⟨incomplete, records, abandoned', _, hrefused.imp hplan hmore⟩)
  | restoresAll before ended progress succeeds skipped put =>
    rw [TalliesRestore, before] at hr
    obtain ⟨records, abandoned, left, hdelivers, hoffers, htotal, hprocessed, hskips⟩ := hr
    obtain rfl := hoffers.atEnd ended
    rw [put, Option.toList_none, List.append_nil, TalliesRestore, progress, hprocessed, htotal]
    refine Or.inr (Or.inr ⟨succeeds, skipped.trans hskips, records, abandoned, ?_⟩)
    exact (hdelivers.imp hplan hmore).close

/-- What others do does not bring a restore to its end, nor back from it. -/
theorem Stirs.succeeds (h : r.Stirs r') : r'.Succeeds ↔ r.Succeeds := by
  rw [Succeeds, Succeeds, h.report]
  have hstage := h.stage
  generalize r.stage = stage, r'.stage = stage' at hstage
  cases hstage with
  | self => exact Iff.rfl
  | password | destination => simp only [reduceCtorEq, false_and, or_self]

theorem TalliesRestore.turn (h : r.TalliesRestore cs puts begun) (hr : r.OnCourse) (t : Turn) :
    (r.turn t).TalliesRestore (cs ++ countsIn .restore r (r.turn t))
      (puts ++ (r.putsAt? t).toList)
      fun records => begun records ∨ r.BeginsRestore records (r.turn t) := by
  rcases r.turn_cases t with ⟨refusals, rfl, hmoves⟩ | ⟨ht, hstirs⟩
  · exact (counts_step hr _).talliesRestore hmoves.plan h
  · have hput : r.putsAt? t = none := by
      cases t with
      | work refusals => exact absurd rfl (ht refusals)
      | incident | reply | leave => rfl
    rw [hput, Option.toList_none, List.append_nil, countsIn_of_posted (posted_turn ht),
      List.append_nil]
    exact h.stays hstirs.plan hstirs.progress hstirs.succeeds
      (congrArg Report.skipped hstirs.report) fun _ => Or.inl

theorem TalliesRestore.after (h : r.TalliesRestore cs puts begun) (hr : r.OnCourse)
    (turns : List Turn) :
    (r.after turns).TalliesRestore (cs ++ r.counts .restore turns) (puts ++ r.puts turns)
      fun records => begun records ∨ r.RestoreBegun records turns := by
  induction turns generalizing r cs puts begun with
  | nil =>
    rw [counts, Run.puts, List.append_nil, List.append_nil]
    exact h.stays rfl rfl Iff.rfl rfl fun _ => Or.inl
  | cons t turns ih =>
    have hrest := ih (h.turn hr t) (hr.turn t)
    rw [List.append_assoc, List.append_assoc] at hrest
    exact hrest.stays rfl rfl Iff.rfl rfl fun _ => or_assoc.mp

/-! ## What the counts tell -/

/-- The counts of the backup are sound, and if it runs to the end of the source, the last one is
that of all its records. -/
structure TellsBackup (r : Run) (turns : List Turn) (total : Nat) : Prop where
  sound : Sound r.plan.blockSize total (r.archived turns).length (r.counts .backup turns)
  complete : r.ArchiveFinished turns → ∃ d, r.BackedUp d turns ∧
    r.archived turns = d.allRecords ∧ total = d.allRecords.length ∧
    (r.counts .backup turns).getLast? = some ⟨total, total⟩

/-- The counts of the restore are sound.  If it comes to its end, the last one is that of the
records that the destination took, and those that it lacks were abandoned, as their database was
skipped. -/
structure TellsRestore (r : Run) (turns : List Turn) (records abandoned left : List Record) :
    Prop where
  begun : r.counts .restore turns ≠ [] ∨ r.puts turns ≠ [] → r.RestoreBegun records turns
  fares : Fares records (r.puts turns) abandoned left
  refused : r.refused turns ⊆ abandoned
  sound : Sound r.plan.blockSize records.length (r.taken turns).length (r.counts .restore turns)
  complete : (r.after turns).Succeeds → r.RestoreBegun records turns ∧ left = [] ∧
    (r.counts .restore turns).getLast? = some ⟨(r.taken turns).length, records.length⟩ ∧
    records.length - (r.taken turns).length = abandoned.length ∧
    ∀ x ∈ abandoned, x.database ∈ (r.after turns).report.skipped

variable {turns : List Turn}

theorem TalliesBackup.tells
    (h : (r.after turns).TalliesBackup (r.counts .backup turns) (r.archived turns)
      (r.ArchiveFinished turns) fun d => r.BackedUp d turns) :
    ∃ total, r.TellsBackup turns total := by
  unfold TalliesBackup at h
  rw [r.plan_after turns] at h
  split at h
  · obtain ⟨hunfinished, hcounts, harchived, -⟩ := h
    refine ⟨0, ?_, fun hfinished => absurd hfinished hunfinished⟩
    rw [hcounts, harchived]
    exact (Shows.nil _).sound (Or.inl rfl)
  · obtain ⟨hunfinished, hshows, -⟩ := h
    exact ⟨_, hshows.sound (Or.inl rfl), fun hfinished => absurd hfinished hunfinished⟩
  · rcases h with ⟨hunfinished, total, hshows⟩ | ⟨-, hshows, d, hd, hall⟩
    · exact ⟨total, hshows.sound (Or.inl rfl), fun hfinished => absurd hfinished hunfinished⟩
    · exact ⟨_, hshows.sound (Or.inr rfl), fun _ => ⟨d, hd, hall, by rw [hall], hshows.getLast?⟩⟩

theorem Delivers.tells (h : (r.after turns).Delivers (r.counts .restore turns) (r.puts turns)
      (fun records => r.RestoreBegun records turns) records abandoned left last)
    (hlast : last = [] ∨ last = [⟨(r.taken turns).length, records.length⟩])
    (hsucceeds : (r.after turns).Succeeds → left = [] ∧ (r.after turns).Skips (r.puts turns) ∧
      last = [⟨(r.taken turns).length, records.length⟩]) :
    r.TellsRestore turns records abandoned left := by
  have hcounts := h.counts
  rw [r.plan_after turns] at hcounts
  refine ⟨fun _ => h.begun, h.fares, h.fares.refused_subset, hcounts.sound hlast, fun hdone => ?_⟩
  obtain ⟨rfl, hskips, rfl⟩ := hsucceeds hdone
  have hlength := h.fares.length_eq
  refine ⟨h.begun, rfl, hcounts.getLast?, ?_, fun x hx => ?_⟩
  · rw [hlength, taken, List.length_nil]
    omega
  · rw [hskips]
    exact h.fares.database_of_abandoned x hx

theorem TalliesRestore.tells
    (h : (r.after turns).TalliesRestore (r.counts .restore turns) (r.puts turns)
      fun records => r.RestoreBegun records turns) :
    ∃ records abandoned left, r.TellsRestore turns records abandoned left := by
  -- where nothing was begun, nothing was shown and nothing put
  have hnothing (hcounts : r.counts .restore turns = []) (hputs : r.puts turns = [])
      (hincomplete : ¬ (r.after turns).Succeeds) :
      ∃ records abandoned left, r.TellsRestore turns records abandoned left := by
    refine ⟨[], [], [], fun hsome => ?_, hputs ▸ .nil [], ?_, ?_,
      fun hdone => absurd hdone hincomplete⟩
    · exact (hsome.elim (· hcounts) (· hputs)).elim
    · rw [refused, hputs]
      exact List.nil_subset _
    · rw [hcounts, taken, hputs]
      exact (Shows.nil _).sound (Or.inl rfl)
  unfold TalliesRestore at h
  split at h
  · rename_i x hprogress
    obtain ⟨records, abandoned, left, hdelivers, -⟩ := h
    have hincomplete : ¬ (r.after turns).Succeeds := not_succeeds (by rw [hprogress]; nofun)
    exact ⟨records, abandoned, left, hdelivers.tells (Or.inl rfl) fun hdone =>
      absurd hdone hincomplete⟩
  · rcases h with ⟨hincomplete, hcounts, hputs⟩ | ⟨hincomplete, records, abandoned, left, h⟩ |
      ⟨-, hskips, records, abandoned, h⟩
    · exact hnothing hcounts hputs hincomplete
    · exact ⟨records, abandoned, left, h.tells (Or.inl rfl) fun hdone => absurd hdone hincomplete⟩
    · exact ⟨records, abandoned, [], h.tells (Or.inr rfl) fun _ => ⟨rfl, hskips, rfl⟩⟩
  · rename_i hlive
    exact hnothing h.1 h.2.1 (not_succeeds hlive)

/-- **Progress is sound.**  Along every run, with every block size, with whatever records there are,
whatever is refused and whenever it is cancelled: the counts of each of the two phases have one
total, never fall and never exceed it, and there is one for each full block, a block being of one
record at least; if the backup runs to its end, the last count is that of all records of the source,
and if the restore does, that of the records that the destination took, and all others that were
counted were abandoned with their database. -/
theorem statuses_sound (plan : Plan) (blockSize : Nat) (bus : Device.Bus) (files : Files)
    (turns : List Turn) (devices : ∀ d ∈ bus.devices, d.Proper)
    (newcomers : ∀ info d, .incident (.plugIn info d) ∈ turns → d.Proper) :
    let start : Run := { plan := plan.withBlockSize blockSize, bus, files }
    (start.after turns).plan.blockSize = max blockSize 1 ∧ (start.after turns).plan.blockSize ≠ 0 ∧
      (∃ total, start.TellsBackup turns total) ∧
      ∃ records abandoned left, start.TellsRestore turns records abandoned left := by
  intro start
  have hcourse : start.OnCourse := onCourse_start _ bus files
  refine ⟨congrArg Plan.blockSize (start.plan_after turns),
    Nat.ne_of_gt (start.after turns).plan.blockSize_pos, TalliesBackup.tells ?_,
    TalliesRestore.tells ?_⟩
  · have hbackup : start.TalliesBackup [] [] False fun _ => False := ⟨id, rfl, rfl, devices⟩
    have hafter := hbackup.after hcourse newcomers
    rw [false_or] at hafter
    exact hafter.imp fun d hd => hd.resolve_left id
  · have hrestore : start.TalliesRestore [] [] fun _ => False := ⟨rfl, rfl, rfl⟩
    exact (hrestore.after hcourse turns).stays rfl rfl Iff.rfl rfl fun _ h => h.resolve_left id

/-- The block size is none and one of the databases is empty when the backup of three records is
through and the migration is cancelled: each of the three was counted, and nothing was restored. -/
theorem statuses_sound_cancelled :
    let entry (database : String) (id : UniqueId) : Record := ⟨database, id, 0, ⟨#[1, 2]⟩⟩
    let s : Device :=
      { databases :=
        [{ name := "Memos", records := Slots.numbered 0 [entry "Memos" 7, entry "Memos" 8] },
          { name := "Drafts" },
          { name := "Tasks", records := Slots.numbered 0 [entry "Tasks" 1] }] }
    let plan : Plan :=
      { source := ⟨1, "Old"⟩, destination := some ⟨2, "New"⟩, archivePath := ⟨"backup.tar"⟩ }
    let bus := (({} : Device.Bus).plugIn plan.source s).plugIn ⟨2, "New"⟩ {}
    let start : Run := { plan := plan.withBlockSize 0, bus, files := {} }
    let work : Turn := .work fun _ _ _ => none
    let turns := List.replicate 15 work ++ [.incident .cancel, work, work]
    (start.after turns).stage = .finished ∧ start.ArchiveFinished turns ∧
      start.counts .backup turns = [⟨0, 3⟩, ⟨1, 3⟩, ⟨2, 3⟩, ⟨3, 3⟩, ⟨3, 3⟩] ∧
      start.counts .restore turns = [] ∧ start.TellsBackup turns 3 ∧
      ∃ records abandoned left, start.TellsRestore turns records abandoned left := by
  intro entry s plan bus start work turns
  have hfinished : (start.after turns).stage = .finished := finished_of_isOver (by decide +kernel)
  have hcounts : start.counts .backup turns = [⟨0, 3⟩, ⟨1, 3⟩, ⟨2, 3⟩, ⟨3, 3⟩, ⟨3, 3⟩] := by
    decide +kernel
  obtain ⟨-, -, ⟨total, hbackup⟩, hrestore⟩ := statuses_sound plan 0 bus {} turns
    (by decide +kernel) fun info d hplug => by simp [turns, work] at hplug
  have htotal : 3 = total := hbackup.sound.same ⟨0, 3⟩ (by rw [hcounts]; exact List.mem_cons_self)
  -- the path of the archive is reported only if it was finished
  have harchive : start.ArchiveFinished turns := by
    have hpath : start.ReportsPath False := ⟨False.elim, fun _ => rfl⟩
    have hreports := hpath.after (onCourse_start _ bus {}) turns
    rw [false_or] at hreports
    exact ((hreports.iff ⟨"backup.tar"⟩).mp (by decide +kernel)).2
  exact ⟨hfinished, harchive, hcounts, by decide +kernel, htotal ▸ hbackup, hrestore⟩

end Run

end Palmtop.Migration
