import Palmtop.Proofs.Migration.Keeping
import Palmtop.Proofs.Migration.Sparing
import Palmtop.Proofs.Migration.Stopping

/-! # What a migration leaves behind

The archive of a migration is created before the first record is read, and is a stub until it is
finished.  Whichever way the migration comes to its end, it leaves no such stub behind: the archive
was finished and is reported, or it is gone, or it was never there (`Run.LeavesBehind`).  Unless it
was finished, no device was changed.

The invariant goes by how far the migration is (`Run.Tends`).  It takes for granted that nobody else
changes files (`Run.Undisputed`); what becomes of the devices does not depend on that.
-/
namespace Palmtop.Archive

/-- The records can be stored in an archive at this path, and all of them are given back. -/
structure Readable (path : Path) (kept : List Record) : Prop extends Fits path kept where
  names : ∀ r ∈ kept, r.database ≠ "."
  payloads : ∀ r ∈ kept, r.payload.size ≤ maxPayload

variable {path : Path} {files : Files} {kept : List Record}

theorem Readable.givenBack (h : Readable path kept) :
    kept.filterMap givenBack = kept.map .ok := by
  rw [← List.filterMap_eq_map]
  refine List.filterMap_congr fun r hr => ?_
  rw [Archive.givenBack, if_neg (h.names r hr), if_neg (Nat.not_lt.mpr (h.payloads r hr))]
  rfl

/-- An archive of such records is read as these records and to its end. -/
theorem Readable.records (h : Readable path kept) (there : Remains False path files kept) :
    Archive.records files path none = .ok (kept, none) := by
  rcases there.load with ⟨members, hload, hstored⟩ | ⟨hlost, -⟩
  · have hall : kept.filter (passes none ·.database) = kept :=
      List.filter_eq_self.mpr fun _ _ => rfl
    rw [records_eq hload, Except.ok.injEq, upToError_eq_none_iff, replies_of_stored hstored, hall]
    exact h.givenBack
  · exact hlost.elim

/-- An archive that was created and not finished can be removed, and then nothing is there. -/
theorem Writer.remove_created {before : Files} {w : Writer}
    (created : Writer.create path before = (.ok w, files)) :
    ∃ files', files.remove path = .ok files' ∧ files'.node path = .error .notFound := by
  obtain ⟨fs, hcreate, -⟩ := Writer.createWith_eq_ok created
  exact Files.remove_create hcreate

end Palmtop.Archive

namespace Palmtop.Migration

/-- Whether the worker is connected there to a device to restore into, and about to take it. -/
def Stage.isReaching : Stage → Bool
  | .taking (.destination _) _ => true
  | _ => false

theorem Stage.closing_of_failing {s : Stage} {b : Backup} (h : s.progress = .failing b) :
    ∃ e, s = .closing b (.error e) := by
  cases s with
  | checking task | working task =>
    cases task with
    | connect side => cases side <;> cases h
    | _ => cases h
  | awaitingPassword side | taking side => cases side <;> cases h
  | closing b' result =>
    cases result with
    | ok => cases h
    | error e =>
      obtain rfl := Progress.failing.inj h
      exact ⟨e, rfl⟩
  | awaitingDestination | ending | finished => cases h

theorem Stage.progress_of_isReaching {s : Stage} (h : s.isReaching = true) :
    s.progress = .between := by
  unfold isReaching at h
  split at h
  · rfl
  · cases h

namespace Run

variable {r r' : Run} {sessions : Device.Bus.Sessions} {fs : Files} {kept : List Record}
  {begun : Bool} {n : Nat} {t : Turn} {turns : List Turn}

/-- Whether an archive is begun in the course of these turns, which the worker then has in hand until
it finishes it or gives it up. -/
def beginsArchive (r : Run) (turns : List Turn) : Bool := (r.worked turns).any (·.progress.isBackup)

/-- Whether the worker gets to be connected to a device to restore into. -/
def reachesDestination (r : Run) (turns : List Turn) : Bool := (r.worked turns).any Stage.isReaching

/-! ## The path of the archive -/

/-- The path of the archive is in the report from the end of the backup on. -/
def Announces (r : Run) : Prop :=
  match r.stage.progress with
  | .before | .backingUp _ | .failing _ => r.report.archivePath = none
  | .between | .restoring _ => r.report.archivePath = some r.plan.archivePath
  | .ended => ∀ p, r.report.archivePath = some p → p = r.plan.archivePath

theorem Progresses.announces (h : r.Progresses sessions r') (hplan : r'.plan = r.plan)
    (hr : r.Announces) : r'.Announces := by
  unfold Announces at hr ⊢
  rw [hplan]
  cases h with
  | stays progress report =>
    rw [progress, report]
    exact hr
  | stops idle progress report =>
    rw [progress, report]
    generalize r.stage.progress = p at hr idle
    intro q hq
    cases p with
    | before => cases hr.symm.trans hq
    | backingUp | failing => cases idle
    | between | restoring => exact Option.some.inj (hq.symm.trans hr)
    | ended => exact hr q hq
  | opensBackup before progress _ _ _ _ report | passes before progress _ report
  | archives before progress _ _ report | fails before progress _ report =>
    rw [before] at hr
    rw [progress]
    exact report ▸ hr
  | closes stage progress report =>
    rw [progress]
    exact congrArg Report.archivePath report
  | breaksOff before progress report =>
    rw [before] at hr
    rw [progress, report]
    intro q hq
    cases hr.symm.trans hq
  | opensRestore before progress _ _ _ _ report =>
    rw [before] at hr
    rw [progress]
    exact report ▸ hr
  | moves before progress _ _ report | givesUp before progress _ _ _ report =>
    rw [before] at hr
    rw [progress, report]
    exact hr

theorem Announces.turn (h : r.Announces) (t : Turn) : (r.turn t).Announces := by
  rcases r.turn_cases t with ⟨refusals, -, hmoves⟩ | ⟨-, hstirs⟩
  · exact hmoves.progresses.announces hmoves.plan h
  · unfold Announces at h ⊢
    rw [hstirs.progress, hstirs.report, hstirs.plan]
    exact h

/-- A path once reported stays in the report. -/
theorem archivePath_after (hcourse : r.OnCourse)
    (h : r.report.archivePath = some r.plan.archivePath) (turns : List Turn) :
    (r.after turns).report.archivePath = some r.plan.archivePath := by
  have hreports : r.ReportsPath True := ⟨fun _ => h, fun hnot => absurd trivial hnot⟩
  have hafter := (hreports.after hcourse turns).path (Or.inl trivial)
  rwa [plan_after] at hafter

/-- No destination is reached unless the archive is reported. -/
theorem Announces.unreached (h : r.Announces) (hcourse : r.OnCourse)
    (hnone : (r.after turns).report.archivePath = none) :
    r.reachesDestination turns = false := by
  induction turns generalizing r with
  | nil => rfl
  | cons t turns ih =>
    rw [reachesDestination, worked, List.any_append, Bool.or_eq_false_iff]
    refine ⟨?_, ih (h.turn t) (hcourse.turn t) hnone⟩
    cases t with
    | incident | reply | leave => rfl
    | work refusals =>
      refine (Bool.or_false _).trans (eq_false_of_ne_true fun hreaching => ?_)
      rw [Announces, Stage.progress_of_isReaching hreaching] at h
      have hsome := archivePath_after hcourse h (.work refusals :: turns)
      rw [hnone] at hsome
      cases hsome

/-! ## The file -/

/-- Others change no files. -/
theorem files_turn (ht : ∀ refusals, t ≠ .work refusals) (unwritten : t.writesFile = false)
    (unremoved : t.removesFile = false) : (r.turn t).files = r.files := by
  cases t with
  | work refusals => exact absurd rfl (ht refusals)
  | reply reply => exact (r.receive_alike _).1
  | leave => rfl
  | incident incident =>
    cases incident with
    | cancel | unplug | plugIn => rfl
    | breakLink | refuseTable => exact files_changeDevice r _ _
    | writeFile => cases unwritten
    | removeFile => cases unremoved

/-- The worker changes files only where it takes the source and where it closes the archive. -/
theorem Moves.files (h : r.Moves sessions r') : r'.files = r.files ∨
    (∃ id, r.stage = .taking .source id) ∨ ∃ b result, r.stage = .closing b result := by
  cases h with
  | opensBackup stage | opensNoBackup stage => exact Or.inr (Or.inl ⟨_, stage⟩)
  | closes stage | breaksOff stage => exact Or.inr (Or.inr ⟨_, _, stage⟩)
  | _ => exact Or.inl rfl

/-- If an archive can be created, files are changed for a backup only. -/
theorem files_openBackup {id : Device.ConnectionId}
    (creatable : ∃ w files, Archive.Writer.create r.plan.archivePath r.files = (.ok w, files)) :
    (r.openBackup id sessions).files = r.files ∨
      (r.openBackup id sessions).stage.progress.isBackup = true := by
  obtain ⟨w, files, hcreate⟩ := creatable
  unfold openBackup
  split
  · exact Or.inl rfl
  · rw [hcreate]
    exact Or.inr rfl

theorem files_step_of_before (h : r.stage.progress = .before)
    (creatable : ∃ w files, Archive.Writer.create r.plan.archivePath r.files = (.ok w, files)) :
    (r.step sessions).files = r.files ∨ (r.step sessions).stage.progress.isBackup = true := by
  rcases (r.moves_step sessions).files with hfiles | ⟨id, stage⟩ | ⟨b, result, stage⟩
  · exact Or.inl hfiles
  · unfold step
    rw [stage]
    dsimp only
    split
    · exact Or.inl rfl
    · exact files_openBackup (r := { r with bus := _ }) creatable
  · rw [stage] at h
    cases result <;> cases h

/-- A backup that is given up leaves its file there until it is closed. -/
theorem files_step_of_failing {b b' : Backup} (h : r.stage.progress = .backingUp b)
    (h' : (r.step sessions).stage.progress = .failing b') :
    (r.step sessions).files = r.files := by
  rcases (r.moves_step sessions).files with hfiles | ⟨id, stage⟩ | ⟨b'', result, stage⟩
  · exact hfiles
  · rw [stage] at h
    cases h
  · cases result with
    | ok =>
      rw [step, stage] at h'
      cases h'
    | error =>
      rw [stage] at h
      cases h

theorem files_step_of_closing {b : Backup} {e : Error} {files : Files}
    (h : r.stage = .closing b (.error e)) (removed : r.files.remove r.plan.archivePath = .ok files) :
    (r.step sessions).files = files := by
  unfold step
  rw [h]
  simp only [closeBackup, removed]
  rfl

/-- The archive was created among these files, has stored the records and was finished. -/
def Sealed (fs : Files) (r : Run) (kept : List Record) : Prop :=
  ∃ (w w' : Archive.Writer) (files : Files),
    Archive.Writer.create r.plan.archivePath fs = (.ok w, files) ∧ w.Extends w' kept ∧
    r.files = (w'.finish files).2

/-- What there is at the path of the archive, by how far the run is. -/
def Tends (fs : Files) (begun : Bool) (r : Run) (kept : List Record) : Prop :=
  match r.stage.progress with
  | .before => begun = false ∧ kept = [] ∧ r.files = fs
  | .backingUp b => ∃ w, Archive.Writer.create r.plan.archivePath fs = (.ok w, r.files) ∧
      w.Extends b.writer kept
  | .failing _ => ∃ w, Archive.Writer.create r.plan.archivePath fs = (.ok w, r.files)
  | .between | .restoring _ => r.Sealed fs kept
  | .ended => (∀ p, r.report.archivePath = some p → r.Sealed fs kept) ∧
      (r.report.archivePath = none →
        (begun = true → r.files.node r.plan.archivePath = .error .notFound) ∧
        (begun = false → r.files = fs))

theorem Sealed.of_files (h : r.Sealed fs kept) (hplan : r'.plan = r.plan)
    (hfiles : r'.files = r.files) : r'.Sealed fs kept := by
  unfold Sealed at h ⊢
  rw [hplan, hfiles]
  exact h

/-- A run that gets no further leaves the archive as it is. -/
theorem Tends.stays (h : r.Tends fs begun kept) (hplan : r'.plan = r.plan)
    (hprogress : r'.stage.progress = r.stage.progress) (hreport : r'.report = r.report)
    (hfiles : r'.files = r.files) : r'.Tends fs begun kept := by
  unfold Tends Sealed at h ⊢
  rw [hplan, hprogress, hreport, hfiles]
  exact h

/-- As long as an archive is in hand, it is of no matter what was begun before. -/
theorem Tends.of_isBackup (h : r.Tends fs begun kept) (hr : r.stage.progress.isBackup = true)
    (other : Bool) : r.Tends fs other kept := by
  unfold Tends at h ⊢
  generalize r.stage.progress = p at h hr
  cases p with
  | backingUp | failing => exact h
  | before | between | restoring | ended => cases hr

/-- A run that stops short leaves what there is. -/
theorem Tends.stops (h : r.Tends fs begun kept) (ha : r.Announces) (hplan : r'.plan = r.plan)
    (idle : r.stage.progress.isBackup = false) (progress : r'.stage.progress = .ended)
    (hpath : r'.report.archivePath = r.report.archivePath) (hfiles : r'.files = r.files) :
    r'.Tends fs begun kept := by
  unfold Tends at h
  unfold Announces at ha
  rw [Tends, progress, hpath, hplan, hfiles]
  generalize r.stage.progress = p at h ha idle
  cases p with
  | before =>
    obtain ⟨hbegun, -, hsame⟩ := h
    refine ⟨fun p hp => ?_, fun _ => ⟨fun hyes => ?_, fun _ => hsame⟩⟩
    · cases ha.symm.trans hp
    · cases hbegun.symm.trans hyes
  | backingUp | failing => cases idle
  | between | restoring =>
    refine ⟨fun _ _ => h.of_files hplan hfiles, fun hnone => ?_⟩
    cases ha.symm.trans hnone
  | ended => exact ⟨fun p hp => (h.1 p hp).of_files hplan hfiles, h.2⟩

/-- Whatever the worker does next, the archive is in the state that goes with how far it got. -/
theorem Tends.step (h : r.Tends fs begun kept) (ha : r.Announces)
    (creatable : ∃ w files, Archive.Writer.create r.plan.archivePath fs = (.ok w, files)) :
    (r.step sessions).Tends fs (begun || r.stage.progress.isBackup)
      (kept ++ (r.archives? sessions).toList) := by
  have hmoves := r.moves_step sessions
  have hplan := hmoves.plan
  cases hmoves.progresses with
  | stays progress report files archived =>
    rw [append_archives? archived]
    cases hbackup : r.stage.progress.isBackup with
    | false =>
      rw [Bool.or_false]
      exact h.stays hplan progress report files
    | true => exact (h.of_isBackup hbackup _).stays hplan progress report files
  | stops idle progress report files archived =>
    rw [idle, Bool.or_false, append_archives? archived]
    refine h.stops ha hplan idle progress (by rw [report]) ?_
    refine files.elim (fun before => ?_) id
    rw [Tends, before] at h
    refine (files_step_of_before before (h.2.2 ▸ creatable)).resolve_right fun hbackup => ?_
    rw [progress] at hbackup
    cases hbackup
  | opensBackup before progress catalog reader fresh created report archived =>
    -- nothing has happened to the files so far
    rw [Tends, before] at h
    obtain ⟨-, rfl, rfl⟩ := h
    rw [archived, Tends, progress, hplan]
    exact ⟨_, created, .refl _⟩
  | passes before progress read report files archived =>
    rw [Tends, before] at h
    rw [append_archives? archived, Tends, progress, hplan, files]
    exact h
  | archives before progress read put report files archived =>
    rw [Tends, before] at h
    obtain ⟨w, created, hextends⟩ := h
    rw [archived, Tends, progress, hplan, files]
    exact ⟨w, created, hextends.trans (Archive.Writer.extends_of_put put)⟩
  | @fails b b' before progress processed report archived =>
    rw [Tends, before] at h
    obtain ⟨w, created, -⟩ := h
    rw [append_archives? archived, Tends, progress, hplan, files_step_of_failing before progress]
    exact ⟨w, created⟩
  | closes stage progress report files archived =>
    rw [Tends, stage] at h
    obtain ⟨w, created, hextends⟩ := h
    rw [append_archives? archived, Tends, progress]
    refine ⟨w, _, r.files, ?_, hextends, files⟩
    rw [hplan]
    exact created
  | breaksOff before progress report archived =>
    rw [Tends, before] at h
    rw [Announces, before] at ha
    obtain ⟨w, created⟩ := h
    -- what is removed is what was created, as nobody else came near it
    obtain ⟨e, stage⟩ := Stage.closing_of_failing before
    obtain ⟨files, removed, hgone⟩ := Archive.Writer.remove_created created
    rw [Tends, progress, report, hplan, files_step_of_closing stage removed, before]
    refine ⟨fun p hp => ?_, fun _ => ⟨fun _ => hgone, fun hnot => ?_⟩⟩
    · cases ha.symm.trans hp
    · rw [Progress.isBackup, Bool.or_true] at hnot
      cases hnot
  | opensRestore before progress _ _ _ _ _ files archived
  | moves before progress _ _ _ files archived | givesUp before progress _ _ _ _ files archived =>
    rw [Tends, before] at h
    rw [append_archives? archived, Tends, progress]
    exact h.of_files hplan files

theorem Tends.turn (h : r.Tends fs begun kept) (ha : r.Announces)
    (creatable : ∃ w files, Archive.Writer.create r.plan.archivePath fs = (.ok w, files))
    (unwritten : t.writesFile = false) (unremoved : t.removesFile = false) :
    (r.turn t).Tends fs (begun || (r.workedAt t).any (·.progress.isBackup))
      (kept ++ (r.archivesAt? t).toList) := by
  rcases r.turn_cases t with ⟨refusals, rfl, -⟩ | ⟨ht, hstirs⟩
  · rw [workedAt, List.any_cons, List.any_nil, Bool.or_false]
    exact h.step ha creatable
  · rw [workedAt_of_ne_work ht, archivesAt?_of_ne_work ht, List.any_nil, Bool.or_false,
      Option.toList_none, List.append_nil]
    exact h.stays hstirs.plan hstirs.progress hstirs.report (files_turn ht unwritten unremoved)

/-- In the course of these turns nobody else changes files, and at first an archive can be created at
the path. -/
structure Undisputed (start : Run) (turns : List Turn) : Prop where
  unwritten : ∀ t ∈ turns, t.writesFile = false
  unremoved : ∀ t ∈ turns, t.removesFile = false
  creatable : ∃ w files, Archive.Writer.create start.plan.archivePath start.files = (.ok w, files)

/-- And so it is along turns at which nobody else changes files. -/
theorem Tends.after (h : r.Tends fs begun kept) (ha : r.Announces)
    (creatable : ∃ w files, Archive.Writer.create r.plan.archivePath fs = (.ok w, files))
    (unwritten : ∀ t ∈ turns, t.writesFile = false)
    (unremoved : ∀ t ∈ turns, t.removesFile = false) :
    (r.after turns).Tends fs (begun || r.beginsArchive turns) (kept ++ r.archived turns) := by
  induction turns generalizing r begun kept with
  | nil =>
    rw [archived, List.append_nil, beginsArchive, worked, List.any_nil, Bool.or_false]
    exact h
  | cons t turns ih =>
    obtain ⟨hwrite, hunwritten⟩ := List.forall_mem_cons.mp unwritten
    obtain ⟨hremove, hunremoved⟩ := List.forall_mem_cons.mp unremoved
    have hrest := ih (h.turn ha creatable hwrite hremove) (ha.turn t)
      (by rwa [r.plan_turn t]) hunwritten hunremoved
    rw [archived, beginsArchive, worked, List.any_append, ← List.append_assoc, ← Bool.or_assoc]
    exact hrest

/-! ## The devices -/

/-- A restore begins where a destination was reached. -/
theorem Moves.restore? (h : r.Moves sessions r') (hr : r.stage.restore? = none)
    (unreached : r.stage.isReaching = false) : r'.stage.restore? = none := by
  cases h with
  | rests => exact hr
  | proceeds stage =>
    rw [Stage.restore?_eq, stage] at hr
    rw [Stage.restore?_eq]
    exact hr
  | opensRestore stage =>
    rw [stage] at unreached
    cases unreached
  | skips stage | puts stage | givesUp stage =>
    rw [stage] at hr
    cases hr
  | _ => rfl

theorem restore?_turn (hr : r.stage.restore? = none)
    (unreached : (r.workedAt t).any Stage.isReaching = false) :
    (r.turn t).stage.restore? = none := by
  rcases r.turn_cases t with ⟨refusals, rfl, hmoves⟩ | ⟨-, hstirs⟩
  · rw [workedAt, List.any_cons, List.any_nil, Bool.or_false] at unreached
    exact hmoves.restore? hr unreached
  · rw [Stage.restore?_eq] at hr ⊢
    rwa [hstirs.progress]

/-- As long as no destination is reached, nothing is restored. -/
theorem restore?_after (hr : r.stage.restore? = none)
    (unreached : r.reachesDestination turns = false) : (r.after turns).stage.restore? = none := by
  induction turns generalizing r with
  | nil => exact hr
  | cons t turns ih =>
    rw [reachesDestination, worked, List.any_append, Bool.or_eq_false_iff] at unreached
    exact ih (restore?_turn hr unreached.1) unreached.2

/-- And every device is left alone. -/
theorem leavesAlone_of_unreached {d : Device} (hd : r.bus.devices[n]? = some d)
    (hr : r.stage.restore? = none) (unreached : r.reachesDestination turns = false) :
    r.LeavesAlone n turns := by
  induction turns generalizing r d with
  | nil => exact leavesAlone_nil hd
  | cons t turns ih =>
    rw [reachesDestination, worked, List.any_append, Bool.or_eq_false_iff] at unreached
    have hquiet : ∃ news, r.bus.Hears news (r.turn t).bus ∧
        ∀ e ∈ news n, e.command.isMutation = false := by
      rcases r.turn_cases t with ⟨refusals, -, hmoves⟩ | ⟨-, hstirs⟩
      · rcases hmoves.heard with ⟨⟨⟨news, hears, hquiet⟩, -⟩, -⟩ | ⟨x, said, hx, -⟩
        · exact ⟨news, hears, hquiet n⟩
        · rw [hx] at hr
          cases hr
      · exact ⟨_, hstirs.bus, List.forall_mem_nil _⟩
    obtain ⟨news, hears, hquiet⟩ := hquiet
    obtain ⟨d', hd', -⟩ := hears.devices n d hd
    exact (ih hd' (restore?_turn hr unreached.1) unreached.2).cons hears hquiet hd

/-! ## What is left -/

/-- What a migration that is over leaves behind, having come there by these turns. -/
structure LeavesBehind (start : Run) (turns : List Turn) (r : Run) : Prop where
  /-- An archive in the report is read to its end as the records that were backed up. -/
  complete : start.Undisputed turns →
    Archive.Readable start.plan.archivePath (start.archived turns) →
    ∀ p, r.report.archivePath = some p → p = start.plan.archivePath ∧
      Archive.records r.files p none = .ok (start.archived turns, none)
  /-- Any other that was begun is gone. -/
  removed : start.Undisputed turns → r.report.archivePath = none →
    start.beginsArchive turns = true → r.files.node start.plan.archivePath = .error .notFound
  untouched : start.Undisputed turns → r.report.archivePath = none →
    start.beginsArchive turns = false → r.files = start.files
  /-- Without an archive no destination is reached. -/
  unreached : r.report.archivePath = none → start.reachesDestination turns = false
  /-- Where none is reached, no device is told to change a record, from when it was plugged in. -/
  spared : start.reachesDestination turns = false → ∀ earlier later, turns = earlier ++ later →
    ∀ n d, (start.after earlier).bus.devices[n]? = some d →
      (start.after earlier).LeavesAlone n later

theorem Sealed.remains (h : r.Sealed fs kept) (hfits : Archive.Fits r.plan.archivePath kept) :
    Archive.Remains False r.plan.archivePath r.files kept := by
  obtain ⟨w, w', files, created, hextends, hfiles⟩ := h
  rw [hfiles]
  exact hfits.finish created hextends (Files.thins_self False files)

/-- **No stub of an archive, and no early damage.**  By whatever turns a migration comes to its end, it
leaves a complete archive that it reports, or none; and unless it reached a destination, no device was
changed. -/
theorem leavesBehind_of_finished (plan : Plan) (bus : Device.Bus) (files : Files)
    (turns : List Turn) :
    let start : Run := { plan, bus, files }
    let r := start.after turns
    r.stage = .finished → start.LeavesBehind turns r := by
  intro start r hfinished
  have hprogress : r.stage.progress = .ended := by rw [hfinished]; rfl
  have hplan : r.plan = plan := plan_after start turns
  have hcourse : start.OnCourse := onCourse_start plan bus files
  have hannounces : start.Announces := rfl
  have hpath : r.Announces := after_of_turn (fun _ t h => h.turn t) hannounces turns
  rw [Announces, hprogress] at hpath
  have htends (h : start.Undisputed turns) :
      (∀ p, r.report.archivePath = some p → r.Sealed files (start.archived turns)) ∧
      (r.report.archivePath = none →
        (start.beginsArchive turns = true → r.files.node plan.archivePath = .error .notFound) ∧
        (start.beginsArchive turns = false → r.files = files)) := by
    have hstart : start.Tends files false [] := ⟨rfl, rfl, rfl⟩
    have hr := hstart.after hannounces h.creatable h.unwritten h.unremoved
    rwa [Tends, hprogress, hplan, Bool.false_or, List.nil_append] at hr
  refine
    { complete := fun h hreadable p hp => ?_
      removed := fun h hnone hbegun => ((htends h).2 hnone).1 hbegun
      untouched := fun h hnone hnot => ((htends h).2 hnone).2 hnot
      unreached := fun hnone => hannounces.unreached hcourse hnone
      spared := fun hnot earlier later hturns n d hd => ?_ }
  · have hsealed := (htends h).1 p hp
    have hremains := hsealed.remains (hplan ▸ hreadable.toFits)
    rw [hplan] at hremains hpath
    rw [hpath p hp]
    exact ⟨rfl, hreadable.records hremains⟩
  · rw [hturns, reachesDestination, worked_append, List.any_append, Bool.or_eq_false_iff] at hnot
    exact leavesAlone_of_unreached hd (restore?_after rfl hnot.1) hnot.2

/-- The backup of two memos is cancelled when the first is in the archive: no archive is left, and the
other device is left alone.  Cancelled when the backup is through, the migration leaves an archive of
both. -/
theorem leavesBehind_of_finished_cancelled :
    let memo (id : UniqueId) (content : List UInt8) : Record := ⟨"Memos", id, 0, ⟨content.toArray⟩⟩
    let s : Device :=
      { databases := [{ name := "Memos", records := Slots.numbered 0 [memo 7 [1], memo 8 [2, 3]] }] }
    let d : Device :=
      { databases := [{ name := "Memos", records := Slots.numbered 0 [memo 7 [4]] }] }
    let plan : Plan :=
      { source := ⟨1, "Old"⟩, destination := some ⟨2, "New"⟩, archivePath := ⟨"backup.tar"⟩ }
    let bus := (({} : Device.Bus).plugIn plan.source s).plugIn ⟨2, "New"⟩ d
    let start : Run := { plan, bus, files := {} }
    let work : Turn := .work fun _ _ _ => none
    let early := List.replicate 6 work ++ [.incident .cancel] ++ List.replicate 4 work
    let late := List.replicate 13 work ++ [.incident .cancel, work, work]
    ((start.after early).stage = .finished ∧ start.Undisputed early ∧
      (start.after early).report = ⟨.cancelled, 1, 0, [], none⟩ ∧
      start.beginsArchive early = true ∧
      (start.after early).files.node plan.archivePath = .error .notFound ∧
      start.LeavesAlone 1 early) ∧
    (start.after late).stage = .finished ∧ start.Undisputed late ∧
      Archive.Readable plan.archivePath (start.archived late) ∧
      (start.after late).report = ⟨.cancelled, 2, 0, [], some ⟨"backup.tar"⟩⟩ ∧
      Archive.records (start.after late).files plan.archivePath none
        = .ok ([memo 7 [1], memo 8 [2, 3]], none) := by
  intro memo s d plan bus start work early late
  have hcreatable : ∃ w files, Archive.Writer.create plan.archivePath {} = (.ok w, files) :=
    ⟨_, _, Archive.createWith_new _ "backup.tar" (by decide +kernel) (by decide +kernel)
      (by decide +kernel) (by decide +kernel) (by decide +kernel)⟩
  have hearly : (start.after early).stage = .finished := finished_of_isOver (by decide +kernel)
  have hlate : (start.after late).stage = .finished := finished_of_isOver (by decide +kernel)
  have hreport : (start.after early).report = ⟨.cancelled, 1, 0, [], none⟩ := by decide +kernel
  have hreport' : (start.after late).report = ⟨.cancelled, 2, 0, [], some ⟨"backup.tar"⟩⟩ := by
    decide +kernel
  have harchived : start.archived late = [memo 7 [1], memo 8 [2, 3]] := by decide +kernel
  have hbegun : start.beginsArchive early = true := by decide +kernel
  have hundisputed : start.Undisputed early := ⟨by decide +kernel, by decide +kernel, hcreatable⟩
  have hundisputed' : start.Undisputed late := ⟨by decide +kernel, by decide +kernel, hcreatable⟩
  have hplain : Archive.Compression.ofPath plan.archivePath = .plain := by decide +kernel
  have hreadable : Archive.Readable plan.archivePath (start.archived late) := by
    rw [harchived]
    refine ⟨⟨?_, by decide +kernel⟩, by decide +kernel, by decide +kernel⟩
    rw [hplain]
    exact fun _ => rfl
  have hleft : start.LeavesBehind early (start.after early) :=
    leavesBehind_of_finished plan bus {} early hearly
  have hleft' : start.LeavesBehind late (start.after late) :=
    leavesBehind_of_finished plan bus {} late hlate
  have hnone : (start.after early).report.archivePath = none := congrArg Report.archivePath hreport
  obtain ⟨-, hrecords⟩ := hleft'.complete hundisputed' hreadable plan.archivePath
    (congrArg Report.archivePath hreport')
  rw [harchived] at hrecords
  have hgone := hleft.removed hundisputed hnone hbegun
  have halone := hleft.spared (hleft.unreached hnone) [] early rfl 1 d rfl
  exact ⟨⟨hearly, hundisputed, hreport, hbegun, hgone, halone⟩, hlate, hundisputed', hreadable,
    hreport', hrecords⟩

end Run

end Palmtop.Migration
