import Palmtop.Proofs.Migration.Moves

/-! # How far a migration is

What a migration has to account for changes at a few of its moves only.  `Stage.progress` forgets
where the worker is but for the backup or the restore that is under way, and `Run.Progresses` says
what a step does to that, to the report, to the files and to what the archive accepts.
-/
namespace Palmtop.Migration

/-- How far a migration is. -/
inductive Progress where
  /-- No backup was begun. -/
  | before
  | backingUp (b : Backup)
  /-- The backup is given up. -/
  | failing (b : Backup)
  /-- The archive is finished, and no restore was begun. -/
  | between
  | restoring (x : Restore)
  | ended

/-- Whether a backup is under way. -/
def Progress.isBackup : Progress → Bool
  | .backingUp _ | .failing _ => true
  | _ => false

def Side.progress : Side → Progress
  | .source => .before
  | .destination _ => .between

def Task.progress : Task → Progress
  | .enterBackup => .before
  | .connect side _ => side.progress
  | .backUp b => .backingUp b
  | .enterResolve | .ask | .enterRestore _ => .between
  | .restore x => .restoring x

def Stage.progress : Stage → Progress
  | .checking task | .working task => task.progress
  | .awaitingPassword side _ | .taking side _ => side.progress
  | .awaitingDestination _ => .between
  | .closing b (.ok ()) => .backingUp b
  | .closing b (.error _) => .failing b
  | .ending _ | .finished => .ended

theorem Stage.Alike.progress {s s' : Stage} (h : s.Alike s') : s'.progress = s.progress := by
  cases h with
  | self | password | destination => rfl

/-- The restore under way. -/
theorem Stage.restore?_eq (s : Stage) :
    s.restore? = match s.progress with
      | .restoring x => some x
      | _ => none := by
  cases s with
  | checking task | working task =>
    cases task with
    | connect side _ => cases side <;> rfl
    | _ => rfl
  | awaitingPassword side _ | taking side _ => cases side <;> rfl
  | closing b result => cases result <;> rfl
  | awaitingDestination | ending | finished => rfl

namespace Run

/-- What one step of the worker does to all that is accounted for. -/
inductive Progresses (sessions : Device.Bus.Sessions) (r r' : Run) : Prop where
  | stays (progress : r'.stage.progress = r.stage.progress) (report : r'.report = r.report)
      (files : r'.files = r.files) (archived : r.archives? sessions = none)
  | stops (idle : r.stage.progress.isBackup = false) (progress : r'.stage.progress = .ended)
      (report : r'.report = { r.report with outcome := r'.report.outcome })
      (files : r.stage.progress = .before ∨ r'.files = r.files)
      (archived : r.archives? sessions = none)
  | opensBackup {bus : Device.Bus} {entries : List CatalogEntry} {b : Backup}
      (before : r.stage.progress = .before) (progress : r'.stage.progress = .backingUp b)
      (catalog : (sessions b.connection).catalog bus = (.ok entries, r'.bus))
      (reader : b.reader = .ofNames (entries.map (·.name))) (fresh : b.processed = 0)
      (created : Archive.Writer.create r.plan.archivePath r.files = (.ok b.writer, r'.files))
      (report : r'.report = r.report) (archived : r.archives? sessions = none)
  | passes {b : Backup} {reader : Device.Reader} (before : r.stage.progress = .backingUp b)
      (progress : r'.stage.progress = .backingUp { b with reader })
      (read : b.reader.next (sessions b.connection) r.bus = (.ok none, reader, r'.bus))
      (report : r'.report = r.report) (files : r'.files = r.files)
      (archived : r.archives? sessions = none)
  | archives {b : Backup} {reader : Device.Reader} {record : Record} {writer : Archive.Writer}
      (before : r.stage.progress = .backingUp b)
      (progress : r'.stage.progress
        = .backingUp { b with reader, writer, processed := b.processed + 1 })
      (read : b.reader.next (sessions b.connection) r.bus = (.ok (some record), reader, r'.bus))
      (put : b.writer.put record = (.ok (), writer)) (report : r'.report = r.report)
      (files : r'.files = r.files) (archived : r.archives? sessions = some record)
  | fails {b b' : Backup} (before : r.stage.progress = .backingUp b)
      (progress : r'.stage.progress = .failing b') (processed : b'.processed = b.processed)
      (report : r'.report = r.report) (archived : r.archives? sessions = none)
  | closes {b : Backup} (stage : r.stage = .closing b (.ok ()))
      (progress : r'.stage.progress = .between)
      (report : r'.report = { r.report with
        backedUp := b.processed, archivePath := some r.plan.archivePath })
      (files : r'.files = (b.writer.finish r.files).2) (archived : r.archives? sessions = none)
  | breaksOff {b : Backup} (before : r.stage.progress = .failing b)
      (progress : r'.stage.progress = .ended)
      (report : r'.report = { r.report with backedUp := b.processed })
      (archived : r.archives? sessions = none)
  | opensRestore {bus : Device.Bus} {entries : List CatalogEntry} {x : Restore} {total : Nat}
      {cursor : Archive.Cursor} {database : Option String} (before : r.stage.progress = .between)
      (progress : r'.stage.progress = .restoring x)
      (catalog : (sessions x.connection).catalog bus = (.ok entries, r'.bus))
      (archive : r.openArchive (entries.map (·.name)) = .ok (total, cursor))
      (peeked : cursor.peek = (.ok database, x.cursor)) (fresh : x.writer.written = 0)
      (report : r'.report = r.report) (files : r'.files = r.files)
      (archived : r.archives? sessions = none)
  /-- A record was stored or left alone, or there was none. -/
  | moves {x x' : Restore} {answer : Option Record} (before : r.stage.progress = .restoring x)
      (progress : r'.stage.progress = .restoring x')
      (read : x.cursor.next = (.ok answer, x'.cursor)) (same : x'.connection = x.connection)
      (report : r'.report = { r.report with restored := x'.writer.written })
      (files : r'.files = r.files) (archived : r.archives? sessions = none)
  | givesUp {x x' : Restore} {cursor : Archive.Cursor} {record : Record}
      (before : r.stage.progress = .restoring x) (progress : r'.stage.progress = .restoring x')
      (read : x.cursor.next = (.ok (some record), cursor)) (skipped : x'.cursor = cursor.skip)
      (same : x'.connection = x.connection)
      (report : r'.report = { r.report with
        restored := x'.writer.written, skipped := r.report.skipped ++ [record.database] })
      (files : r'.files = r.files) (archived : r.archives? sessions = none)

variable {r r' : Run} {sessions : Device.Bus.Sessions}

/-- The archive accepts records while one is moved into it. -/
theorem archives?_of_stage {stage : Stage} (h : r.stage = stage)
    (hstage : ∀ b, stage ≠ .working (.backUp b)) : r.archives? sessions = none := by
  unfold archives?
  split
  · rename_i b hb
    exact absurd (h.symm.trans hb) (hstage b)
  · rfl

theorem archives?_of_isIdle (h : r.stage.isIdle = true) : r.archives? sessions = none := by
  refine archives?_of_stage rfl fun b hb => ?_
  rw [hb] at h
  cases h

theorem archives?_of_ended {b : Backup} (h : r.stage = .working (.backUp b))
    (hended : b.reader.ended = true) : r.archives? sessions = none := by
  simp only [archives?, h, hended, if_true]

/-- Otherwise it is up to the record that is read. -/
theorem archives?_of_read {b : Backup} {answer : Except Device.Error (Option Record)}
    {reader : Device.Reader} {bus : Device.Bus} (h : r.stage = .working (.backUp b))
    (hended : b.reader.ended = false)
    (hread : b.reader.next (sessions b.connection) r.bus = (answer, reader, bus)) :
    r.archives? sessions = match answer with
      | .ok (some record) =>
        match b.writer.put record with
        | (.ok (), _) => some record
        | (.error _, _) => none
      | _ => none := by
  simp only [archives?, h, hended, Bool.false_eq_true, if_false, hread]
  split
  · rename_i hanswer
    obtain ⟨rfl, -⟩ := Prod.mk.inj hanswer
    rfl
  · rename_i hanswer
    split
    · exact absurd rfl (hanswer _ _)
    · rfl

/-- Then no record comes behind those that were accepted. -/
theorem append_archives? (h : r.archives? sessions = none) (kept : List Record) :
    kept ++ (r.archives? sessions).toList = kept := by
  rw [h, Option.toList_none, List.append_nil]

theorem Side.isBackup_progress (side : Side) : side.progress.isBackup = false := by
  cases side with
  | source | destination => rfl

theorem Task.isBackup_progress {task : Task} (h : task.isUnderWay = false) :
    task.progress.isBackup = false := by
  cases task with
  | backUp | restore => cases h
  | connect side _ => exact Side.isBackup_progress side
  | enterBackup | enterResolve | enterRestore | ask => rfl

theorem Stage.isBackup_progress {stage : Stage} (h : stage.isAwaiting = true) :
    stage.progress.isBackup = false := by
  cases stage with
  | awaitingPassword side _ => exact Side.isBackup_progress side
  | awaitingDestination => rfl
  | checking | working | taking | closing | ending | finished => cases h

theorem Moves.progresses (h : r.Moves sessions r') : r.Progresses sessions r' := by
  cases h with
  | rests stage => exact .stays rfl rfl rfl (archives?_of_isIdle stage)
  | proceeds stage | entersBackup stage | entersResolve stage | settles stage | entersRestore stage
  | connects stage | locked stage | unlocks stage | asks stage | rejects stage | chooses stage =>
    exact .stays (by rw [stage]; rfl) rfl rfl (archives?_of_stage stage nofun)
  | reachesEnd stage ended =>
    exact .stays (by rw [stage]; rfl) rfl rfl (archives?_of_ended stage ended)
  | drops stage _ idle =>
    exact .stops (by rw [stage]; exact Task.isBackup_progress idle) rfl rfl (Or.inr rfl)
      (archives?_of_stage stage nofun)
  | connectsNot stage =>
    exact .stops (by rw [stage]; exact Side.isBackup_progress _) rfl rfl (Or.inr rfl)
      (archives?_of_stage stage nofun)
  | abandons stage =>
    refine .stops (Stage.isBackup_progress stage) rfl rfl (Or.inr rfl) ?_
    refine archives?_of_stage rfl fun b hb => ?_
    rw [hb] at stage
    cases stage
  | dropsRestore stage | opensNoRestore stage | restoresAll stage | putsNot stage | readsNot stage
  | concludes stage =>
    exact .stops (by rw [stage]; rfl) rfl rfl (Or.inr rfl) (archives?_of_stage stage nofun)
  | opensNoBackup stage =>
    exact .stops (by rw [stage]; rfl) rfl rfl (Or.inl (by rw [stage]; rfl))
      (archives?_of_stage stage nofun)
  | opensBackup stage taken catalog created =>
    exact .opensBackup (by rw [stage]; rfl) rfl catalog rfl rfl created rfl
      (archives?_of_stage stage nofun)
  | passes stage ended read =>
    exact .passes (by rw [stage]; rfl) rfl read rfl rfl (archives?_of_read stage ended read)
  | archives stage ended read put =>
    refine .archives (by rw [stage]; rfl) rfl read put rfl rfl ?_
    rw [archives?_of_read stage ended read]
    simp only [put]
  | dropsBackup stage =>
    exact .fails (by rw [stage]; rfl) rfl rfl rfl (archives?_of_stage stage nofun)
  | @archivesNot b answer _ _ _ _ stage ended read lost =>
    refine .fails (b := b) (by rw [stage]; rfl) rfl rfl rfl ?_
    rw [archives?_of_read stage ended read]
    rcases answer with e | _ | record
    · rfl
    · rfl
    · obtain ⟨e, hput⟩ := lost record rfl
      simp only [hput]
  | closes stage => exact .closes stage rfl rfl rfl (archives?_of_stage stage nofun)
  | breaksOff stage =>
    exact .breaksOff (by rw [stage]; rfl) rfl rfl (archives?_of_stage stage nofun)
  | opensRestore stage _ catalog archive peeked =>
    exact .opensRestore (by rw [stage]; rfl) rfl catalog archive peeked rfl rfl rfl
      (archives?_of_stage stage nofun)
  | skips stage read | puts stage read =>
    exact .moves (by rw [stage]; rfl) rfl read rfl rfl rfl (archives?_of_stage stage nofun)
  | givesUp stage read =>
    exact .givesUp (by rw [stage]; rfl) rfl read rfl rfl rfl rfl (archives?_of_stage stage nofun)

end Run

end Palmtop.Migration
