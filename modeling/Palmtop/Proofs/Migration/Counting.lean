import Palmtop.Proofs.Archive.Outstanding
import Palmtop.Proofs.Migration.Phases
import Palmtop.Proofs.Migration.Posting
import Palmtop.Proofs.Migration.Progress

/-! # What a migration counts

A status shows a count: so many records of so many.  Which counts are shown in a phase, and which
records are put to the destination with which answers, is read off the turns (`Run.counts`,
`Run.puts`).

`Run.Counts` has one rule for each thing that a step of the worker can do to any of this, with the
counts that it shows in each of the two phases in which records are moved (`Run.counts_step`).
-/
namespace Palmtop.Migration

/-- How far a phase is. -/
structure Count where
  processed : Nat
  total : Nat
  deriving DecidableEq

/-- The count that an event shows. -/
def Event.count? : Event → Option Count
  | .status _ processed total => some ⟨processed, total⟩
  | _ => none

/-- Whether the worker may show a count there. -/
def Stage.isCounting : Stage → Bool
  | .working (.backUp _) | .working (.restore _) | .taking _ _ | .closing _ (.ok ()) | .ending _ =>
    true
  | _ => false

theorem Side.progress_cases (side : Side) :
    side.progress = .before ∨ side.progress = .between := by
  cases side with
  | source => exact Or.inl rfl
  | destination => exact Or.inr rfl

theorem Task.progress_cases {task : Task} (h : task.isUnderWay = false) :
    task.progress = .before ∨ task.progress = .between := by
  cases task with
  | connect side _ => exact side.progress_cases
  | enterBackup => exact Or.inl rfl
  | enterResolve | enterRestore | ask => exact Or.inr rfl
  | backUp | restore => cases h

theorem Stage.progress_cases {stage : Stage} (h : stage.isAwaiting = true) :
    stage.progress = .before ∨ stage.progress = .between := by
  cases stage with
  | awaitingPassword side _ => exact side.progress_cases
  | awaitingDestination => exact Or.inr rfl
  | checking | working | taking | closing | ending | finished => cases h

theorem Task.progress_ne_ended (task : Task) : task.progress ≠ .ended := by
  cases task with
  | connect side _ => cases side <;> nofun
  | enterBackup | enterResolve | enterRestore | ask | backUp | restore => nofun

namespace Run

/-! ## Read off a run -/

/-- The counts shown on the way from one state to another, in their order, if it is this phase that
the run is in by then. -/
def countsIn (phase : Phase) (r r' : Run) : List Count :=
  if r'.phase = phase then
    ((r'.posted.take (r'.posted.length - r.posted.length)).filterMap Event.count?).reverse
  else []

/-- The counts shown in a phase in the course of these turns. -/
def counts (phase : Phase) (r : Run) : List Turn → List Count
  | [] => []
  | t :: turns => countsIn phase r (r.turn t) ++ (r.turn t).counts phase turns

/-- The record that is put to the destination when the worker does what is next, and the answer. -/
def puts? (r : Run) (sessions : Device.Bus.Sessions) : Option (Record × Except Device.Error Unit) :=
  match r.stage with
  | .working (.restore x) =>
    if x.cursor.atEnd then none
    else match x.cursor.next with
      | (.ok (some record), _) =>
        some (record, (x.writer.put (sessions x.connection) record r.bus).1)
      | _ => none
  | _ => none

/-- The record that is put to the destination at a turn, and the answer. -/
def putsAt? (r : Run) : Turn → Option (Record × Except Device.Error Unit)
  | .work refusals => r.puts? (Device.Bus.sessionsWith refusals)
  | _ => none

/-- The records that are put to the destination in the course of these turns, and the answers. -/
def puts (r : Run) : List Turn → List (Record × Except Device.Error Unit)
  | [] => []
  | t :: turns => (r.putsAt? t).toList ++ (r.turn t).puts turns

/-- The records that the destination takes in the course of these turns. -/
def taken (r : Run) (turns : List Turn) : List Record := Archive.takenOf (r.puts turns)

/-- The records that it refuses. -/
def refused (r : Run) (turns : List Turn) : List Record := Archive.refusedOf (r.puts turns)

/-- The restore has come to its end. -/
def Succeeds (r : Run) : Prop :=
  r.stage = .ending (.ok ()) ∨ r.stage = .finished ∧ r.report.outcome = .completed

variable {r r' : Run} {sessions : Device.Bus.Sessions} {phase : Phase}

theorem not_succeeds (h : r.stage.progress ≠ .ended) : ¬ r.Succeeds := by
  rintro (hstage | ⟨hstage, -⟩)
  · exact h (by rw [hstage]; rfl)
  · exact h (by rw [hstage]; rfl)

theorem not_succeeds_of_error {e : Error} (h : r.stage = .ending (.error e)) : ¬ r.Succeeds := by
  rintro (hstage | ⟨hstage, -⟩)
  · cases h.symm.trans hstage
  · cases h.symm.trans hstage

theorem puts?_of_stage {stage : Stage} (h : r.stage = stage)
    (hstage : ∀ x, stage ≠ .working (.restore x)) : r.puts? sessions = none := by
  unfold puts?
  split
  · rename_i x hx
    exact absurd (h.symm.trans hx) (hstage x)
  · rfl

theorem puts?_of_progress (h : ∀ x, r.stage.progress ≠ .restoring x) :
    r.puts? sessions = none :=
  puts?_of_stage rfl fun x hx => h x (by rw [hx]; rfl)

theorem archives?_of_progress (h : ∀ b, r.stage.progress ≠ .backingUp b) :
    r.archives? sessions = none :=
  archives?_of_stage rfl fun b hb => h b (by rw [hb]; rfl)

/-- Otherwise it is up to what is read. -/
theorem puts?_of_read {x : Restore} {answer : Except Archive.Error (Option Record)}
    {cursor : Archive.Cursor} (h : r.stage = .working (.restore x)) (hend : x.cursor.atEnd = false)
    (hread : x.cursor.next = (answer, cursor)) :
    r.puts? sessions = match answer with
      | .ok (some record) => some (record, (x.writer.put (sessions x.connection) record r.bus).1)
      | _ => none := by
  simp only [puts?, h, hend, Bool.false_eq_true, if_false, hread]
  split
  · rename_i hanswer
    obtain ⟨rfl, -⟩ := Prod.mk.inj hanswer
    rfl
  · rename_i hanswer
    split
    · exact absurd rfl (hanswer _ _)
    · rfl

theorem countsIn_of_append {news : List Event} (h : r'.posted = news ++ r.posted) :
    countsIn phase r r'
      = if r'.phase = phase then (news.filterMap Event.count?).reverse else [] := by
  rw [countsIn, h, List.length_append, Nat.add_sub_cancel, List.take_left]

theorem countsIn_of_phase (h : r'.phase ≠ phase) : countsIn phase r r' = [] := if_neg h

theorem countsIn_of_posted (h : r'.posted = r.posted) : countsIn phase r r' = [] := by
  rw [countsIn_of_append (show r'.posted = [] ++ r.posted from h), List.filterMap_nil,
    List.reverse_nil, ite_self]

theorem countsIn_of_uncounted {event : Event} (h : r'.posted = event :: r.posted)
    (hevent : event.count? = none) : countsIn phase r r' = [] := by
  rw [countsIn_of_append (show r'.posted = [event] ++ r.posted from h),
    List.filterMap_cons_none hevent, List.filterMap_nil, List.reverse_nil, ite_self]

theorem countsIn_of_news {news : List Event} (h : r'.posted = news ++ r.posted)
    (hphase : r'.phase = phase) :
    countsIn phase r r' = (news.filterMap Event.count?).reverse := by
  rw [countsIn_of_append h, if_pos hphase]

theorem countsIn_of_status {text : String} {processed total : Nat}
    (h : r'.posted = .status text processed total :: r.posted) (hphase : r'.phase = phase) :
    countsIn phase r r' = [⟨processed, total⟩] :=
  countsIn_of_news (show r'.posted = [.status text processed total] ++ r.posted from h) hphase

/-- After every so many records, one count is shown. -/
theorem postBlock_news (r : Run) (text : String) (processed total : Nat) :
    ∃ news, r.postBlock text processed total = { r with posted := news ++ r.posted } ∧
      (news.filterMap Event.count?).reverse
        = if processed % r.plan.blockSize = 0 then [⟨processed, total⟩] else [] := by
  unfold postBlock
  split
  · exact ⟨[.status text processed total], rfl, rfl⟩
  · exact ⟨[], rfl, rfl⟩

theorem phase_of_entered (phases : List Phase) (h : r.Entered (phases ++ [phase])) :
    r.phase = phase := by
  have hphases := congrArg List.reverse h
  rw [List.reverse_reverse, List.reverse_cons, List.reverse_append,
    List.reverse_singleton] at hphases
  rw [Run.phase, hphases]
  rfl

/-! ## One step -/

/-- What one step of the worker does to what is counted, and the counts that it shows in the backup
and in the restore. -/
inductive Counts (sessions : Device.Bus.Sessions) (r r' : Run) :
    (backup restore : List Count) → Prop where
  | stays (progress : r'.stage.progress = r.stage.progress) (succeeds : r'.Succeeds ↔ r.Succeeds)
      (skipped : r'.report.skipped = r.report.skipped) (archived : r.archives? sessions = none)
      (put : r.puts? sessions = none) : Counts sessions r r' [] []
  | stops (live : r.stage.progress ≠ .ended) (idle : ∀ b, r.stage.progress ≠ .backingUp b)
      (progress : r'.stage.progress = .ended) (incomplete : ¬ r'.Succeeds)
      (archived : r.archives? sessions = none) (put : r.puts? sessions = none) :
      Counts sessions r r' [] []
  | opensBackup {bus : Device.Bus} {entries : List CatalogEntry} {b : Backup}
      (before : r.stage.progress = .before) (progress : r'.stage.progress = .backingUp b)
      (catalog : (sessions b.connection).catalog bus = (.ok entries, r'.bus))
      (reader : b.reader = .ofNames (entries.map (·.name))) (fresh : b.processed = 0)
      (total : b.total = entries.foldr (·.recordCount + ·) 0)
      (skipped : r'.report.skipped = r.report.skipped) (archived : r.archives? sessions = none) :
      Counts sessions r r' [⟨0, b.total⟩] []
  | passes {b : Backup} {reader : Device.Reader} (before : r.stage.progress = .backingUp b)
      (progress : r'.stage.progress = .backingUp { b with reader })
      (read : b.reader.next (sessions b.connection) r.bus = (.ok none, reader, r'.bus))
      (skipped : r'.report.skipped = r.report.skipped) (archived : r.archives? sessions = none) :
      Counts sessions r r' [] []
  | archives {b : Backup} {reader : Device.Reader} {record : Record} {writer : Archive.Writer}
      (before : r.stage.progress = .backingUp b)
      (progress : r'.stage.progress
        = .backingUp { b with reader, writer, processed := b.processed + 1 })
      (read : b.reader.next (sessions b.connection) r.bus = (.ok (some record), reader, r'.bus))
      (skipped : r'.report.skipped = r.report.skipped)
      (archived : r.archives? sessions = some record) :
      Counts sessions r r'
        (if (b.processed + 1) % r.plan.blockSize = 0 then [⟨b.processed + 1, b.total⟩] else []) []
  | fails {b b' : Backup} (before : r.stage.progress = .backingUp b)
      (progress : r'.stage.progress = .failing b') (skipped : r'.report.skipped = r.report.skipped)
      (archived : r.archives? sessions = none) : Counts sessions r r' [] []
  | closes {b : Backup} (stage : r.stage = .closing b (.ok ()))
      (progress : r'.stage.progress = .between) (skipped : r'.report.skipped = r.report.skipped) :
      Counts sessions r r' [⟨b.processed, b.total⟩] []
  | opensRestore {bus : Device.Bus} {entries : List CatalogEntry} {x : Restore}
      {cursor : Archive.Cursor} {database : Option String} (before : r.stage.progress = .between)
      (progress : r'.stage.progress = .restoring x)
      (catalog : (sessions x.connection).catalog bus = (.ok entries, r'.bus))
      (archive : r.openArchive (entries.map (·.name)) = .ok (x.total, cursor))
      (peeked : cursor.peek = (.ok database, x.cursor)) (fresh : x.processed = 0)
      (skipped : r'.report.skipped = r.report.skipped) :
      Counts sessions r r' [] (if database.isSome then [⟨0, x.total⟩] else [])
  | findsNone {x : Restore} {cursor : Archive.Cursor} (before : r.stage.progress = .restoring x)
      (progress : r'.stage.progress = .restoring { x with cursor })
      (read : x.cursor.next = (.ok none, cursor)) (skipped : r'.report.skipped = r.report.skipped)
      (put : r.puts? sessions = none) : Counts sessions r r' [] []
  | puts {x : Restore} {cursor : Archive.Cursor} {record : Record} {writer : Device.Writer}
      (before : r.stage.progress = .restoring x)
      (progress : r'.stage.progress
        = .restoring { x with cursor, writer, processed := x.processed + 1 })
      (read : x.cursor.next = (.ok (some record), cursor))
      (skipped : r'.report.skipped = r.report.skipped)
      (put : r.puts? sessions = some (record, .ok ())) :
      Counts sessions r r' []
        (if (x.processed + 1) % r.plan.blockSize = 0 then [⟨x.processed + 1, x.total⟩] else [])
  | givesUp {x : Restore} {cursor : Archive.Cursor} {record : Record} {writer : Device.Writer}
      {e : Device.Error} (before : r.stage.progress = .restoring x)
      (progress : r'.stage.progress = .restoring { x with cursor := cursor.skip, writer })
      (read : x.cursor.next = (.ok (some record), cursor))
      (skipped : r'.report.skipped = r.report.skipped ++ [record.database])
      (put : r.puts? sessions = some (record, .error e)) : Counts sessions r r' [] []
  | putsNot {x : Restore} {cursor : Archive.Cursor} {record : Record} {e : Device.Error}
      (before : r.stage.progress = .restoring x) (progress : r'.stage.progress = .ended)
      (incomplete : ¬ r'.Succeeds) (read : x.cursor.next = (.ok (some record), cursor))
      (put : r.puts? sessions = some (record, .error e)) : Counts sessions r r' [] []
  | restoresAll {x : Restore} (before : r.stage.progress = .restoring x)
      (ended : x.cursor.atEnd = true) (progress : r'.stage.progress = .ended)
      (succeeds : r'.Succeeds) (skipped : r'.report.skipped = r.report.skipped)
      (put : r.puts? sessions = none) : Counts sessions r r' [] [⟨x.processed, x.total⟩]

/-- The step keeps count in what it shows. -/
def KeepsCount (sessions : Device.Bus.Sessions) (r r' : Run) : Prop :=
  r.Counts sessions r' (countsIn .backup r r') (countsIn .restore r r')

theorem Counts.uncounted (h : r.Counts sessions r' [] [])
    (hnone : ∀ phase, countsIn phase r r' = []) : KeepsCount sessions r r' := by
  rw [KeepsCount, hnone, hnone]
  exact h

theorem Counts.inBackup {cs : List Count} (h : r.Counts sessions r' cs [])
    (hphase : r'.phase = .backup) (hcs : countsIn .backup r r' = cs) :
    KeepsCount sessions r r' := by
  rw [KeepsCount, hcs, countsIn_of_phase (by rw [hphase]; nofun)]
  exact h

theorem Counts.inRestore {cs : List Count} (h : r.Counts sessions r' [] cs)
    (hphase : r'.phase = .restore) (hcs : countsIn .restore r r' = cs) :
    KeepsCount sessions r r' := by
  rw [KeepsCount, hcs, countsIn_of_phase (by rw [hphase]; nofun)]
  exact h

/-! ## Steps that show no count -/

theorem uncounted_drop (r : Run) (task : Task) : countsIn phase r (r.drop task) = [] := by
  cases task with
  | _ => exact countsIn_of_posted rfl

theorem uncounted_resolve (r : Run) :
    countsIn phase r (r.enter .resolveDestination).resolve = [] := by
  unfold resolve
  split
  · exact countsIn_of_posted rfl
  split
  · exact countsIn_of_uncounted rfl rfl
  · exact countsIn_of_posted rfl

theorem uncounted_connect (r : Run) (side : Side) (password : Option String) :
    countsIn phase r (r.connect side password) = [] := by
  unfold connect
  dsimp only
  split
  · exact countsIn_of_posted rfl
  split
  · exact countsIn_of_posted rfl
  · exact countsIn_of_uncounted rfl rfl

theorem uncounted_takePassword (r : Run) (side : Side) (answer : Option String) :
    countsIn phase r (r.takePassword side answer) = [] := by
  unfold takePassword
  split
  · split
    · exact countsIn_of_posted rfl
    · exact countsIn_of_posted rfl
  · exact countsIn_of_posted rfl

theorem uncounted_takeDestination (r : Run) (answer : Option DeviceInfo) :
    countsIn phase r (r.takeDestination answer) = [] := by
  unfold takeDestination
  split
  · exact countsIn_of_posted rfl
  split
  · exact countsIn_of_uncounted rfl rfl
  · exact countsIn_of_posted rfl

theorem uncounted_perform {task : Task} (h : (Stage.working task).isCounting = false) :
    countsIn phase r (r.perform task sessions) = [] := by
  cases task with
  | enterBackup | enterRestore => exact countsIn_of_posted rfl
  | enterResolve => exact uncounted_resolve r
  | connect side password => exact uncounted_connect r side password
  | ask => exact countsIn_of_uncounted rfl rfl
  | backUp | restore => cases h

theorem uncounted_step (h : r.stage.isCounting = false) :
    countsIn phase r (r.step sessions) = [] := by
  unfold step
  split
  · split
    · exact uncounted_drop r _
    · exact countsIn_of_posted rfl
  · rename_i hstage
    exact uncounted_perform (hstage ▸ h)
  · split
    · exact countsIn_of_posted rfl
    · exact uncounted_takePassword r _ _
  · split
    · exact countsIn_of_posted rfl
    · exact uncounted_takeDestination r _
  · rename_i hstage
    rw [hstage] at h
    cases h
  · rename_i result hstage
    rw [hstage] at h
    cases result with
    | ok => cases h
    | error => exact countsIn_of_posted rfl
  · rename_i hstage
    rw [hstage] at h
    cases h
  · exact countsIn_of_posted rfl

/-- Nothing is counted at a step between tasks. -/
theorem counts_of_progress (hlive : r.stage.progress ≠ .ended)
    (hprogress : r'.stage.progress = r.stage.progress)
    (hskipped : r'.report.skipped = r.report.skipped) (harchived : r.archives? sessions = none)
    (hput : r.puts? sessions = none) : r.Counts sessions r' [] [] :=
  .stays hprogress (iff_of_false (not_succeeds (hprogress ▸ hlive)) (not_succeeds hlive))
    hskipped harchived hput

/-- A migration that moves no records comes to a premature end. -/
theorem counts_of_stop {e : Error}
    (hidle : r.stage.progress = .before ∨ r.stage.progress = .between)
    (hstage : r'.stage = .ending (.error e)) : r.Counts sessions r' [] [] := by
  have hbackup : ∀ b, r.stage.progress ≠ .backingUp b := by
    rcases hidle with h | h <;> rw [h] <;> exact fun _ => nofun
  have hrestore : ∀ x, r.stage.progress ≠ .restoring x := by
    rcases hidle with h | h <;> rw [h] <;> exact fun _ => nofun
  refine .stops ?_ hbackup (by rw [hstage]; rfl) (not_succeeds_of_error hstage)
    (archives?_of_progress hbackup) (puts?_of_progress hrestore)
  rcases hidle with h | h <;> rw [h] <;> nofun

theorem Moves.counts (h : r.Moves sessions r') (hquiet : r.stage.isCounting = false) :
    r.Counts sessions r' [] [] := by
  cases h with
  | rests stage =>
    refine .stays rfl Iff.rfl rfl (archives?_of_isIdle stage) (puts?_of_stage rfl fun x hx => ?_)
    rw [hx] at stage
    cases stage
  | @proceeds task stage =>
    exact counts_of_progress (by rw [stage]; exact task.progress_ne_ended) (by rw [stage]; rfl) rfl
      (archives?_of_stage stage fun _ => nofun) (puts?_of_stage stage fun _ => nofun)
  | entersBackup stage | entersResolve stage | settles stage | entersRestore stage
  | asks stage | rejects stage | chooses stage =>
    exact counts_of_progress (by rw [stage]; nofun) (by rw [stage]; rfl) rfl
      (archives?_of_stage stage fun _ => nofun) (puts?_of_stage stage fun _ => nofun)
  | @connects side _ _ _ stage | @locked side _ _ _ _ _ stage | @unlocks side _ _ stage =>
    exact counts_of_progress (by rw [stage]; cases side <;> nofun) (by rw [stage]; rfl) rfl
      (archives?_of_stage stage fun _ => nofun) (puts?_of_stage stage fun _ => nofun)
  | drops stage _ idle => exact counts_of_stop (by rw [stage]; exact Task.progress_cases idle) rfl
  | @connectsNot side _ _ _ stage =>
    exact counts_of_stop (by rw [stage]; exact side.progress_cases) rfl
  | abandons stage => exact counts_of_stop (Stage.progress_cases stage) rfl
  | dropsBackup stage =>
    exact .fails (by rw [stage]; rfl) rfl rfl (archives?_of_stage stage fun _ => nofun)
  | dropsRestore stage | breaksOff stage =>
    exact .stops (by rw [stage]; nofun) (by rw [stage]; exact fun _ => nofun) rfl
      (not_succeeds_of_error rfl) (archives?_of_stage stage fun _ => nofun)
      (puts?_of_stage stage fun _ => nofun)
  | opensBackup stage | opensNoBackup stage | reachesEnd stage | passes stage | archives stage
  | archivesNot stage | closes stage | opensRestore stage | opensNoRestore stage | restoresAll stage
  | skips stage | puts stage | givesUp stage | putsNot stage | readsNot stage | concludes stage =>
    rw [stage] at hquiet
    cases hquiet

/-! ## Steps that may show one -/

theorem count_openBackup {id : Device.ConnectionId} {bus : Device.Bus}
    (hstage : r.stage = .taking .source id) (hphase : r.phase = .backup) :
    KeepsCount sessions r ({ r with bus }.openBackup id sessions) := by
  have hbefore : r.stage.progress = .before := by rw [hstage]; rfl
  unfold openBackup
  split
  · exact Counts.uncounted (counts_of_stop (Or.inl hbefore) rfl) fun _ => countsIn_of_posted rfl
  rename_i hcatalog
  split
  · exact Counts.uncounted (counts_of_stop (Or.inl hbefore) rfl) fun _ => countsIn_of_posted rfl
  · exact Counts.inBackup (.opensBackup hbefore rfl hcatalog rfl rfl rfl rfl
      (archives?_of_stage hstage fun _ => nofun)) hphase (countsIn_of_status rfl hphase)

theorem count_backUp {b : Backup} (hstage : r.stage = .working (.backUp b))
    (hphase : r.phase = .backup) : KeepsCount sessions r (r.backUp b sessions) := by
  have hbefore : r.stage.progress = .backingUp b := by rw [hstage]; rfl
  unfold backUp
  split
  · rename_i hended
    exact Counts.uncounted (counts_of_progress (by rw [hbefore]; nofun) hbefore.symm rfl
      (archives?_of_ended hstage hended) (puts?_of_stage hstage fun _ => nofun))
        fun _ => countsIn_of_posted rfl
  rename_i hended
  have hended := eq_false_of_ne_true hended
  simp only [transfer, Device.Reader.producer, Archive.Writer.consumer]
  rcases hread : b.reader.next (sessions b.connection) r.bus with ⟨e | _ | record, reader, bus⟩
  · exact Counts.uncounted (.fails hbefore rfl rfl (archives?_of_read hstage hended hread))
      fun _ => countsIn_of_posted rfl
  · exact Counts.uncounted (.passes hbefore rfl hread rfl (archives?_of_read hstage hended hread))
      fun _ => countsIn_of_posted rfl
  have harchived := archives?_of_read hstage hended hread
  dsimp only at harchived ⊢
  rcases hput : b.writer.put record with ⟨e | _, writer⟩
  · rw [hput] at harchived
    exact Counts.uncounted (.fails hbefore rfl rfl harchived) fun _ => countsIn_of_posted rfl
  · rw [hput] at harchived
    dsimp only at harchived ⊢
    obtain ⟨news, hpost, hnews⟩ := postBlock_news { r with bus }
      (backingUpText r.plan.source (reader.current?.getD "")) (b.processed + 1) b.total
    rw [hpost]
    exact Counts.inBackup (.archives hbefore rfl hread rfl harchived) hphase
      (Eq.trans (countsIn_of_news rfl hphase) hnews)

theorem count_closeBackup {b : Backup} (hstage : r.stage = .closing b (.ok ()))
    (hphase : r.phase = .backup) : KeepsCount sessions r (r.closeBackup b (.ok ())) :=
  Counts.inBackup (.closes hstage rfl rfl) hphase (countsIn_of_status rfl hphase)

theorem count_openRestore {destination : DeviceInfo} {id : Device.ConnectionId} {bus : Device.Bus}
    (hstage : r.stage = .taking (.destination destination) id) (hphase : r.phase = .restore) :
    KeepsCount sessions r ({ r with bus }.openRestore destination id sessions) := by
  have hbefore : r.stage.progress = .between := by rw [hstage]; rfl
  unfold openRestore
  split
  · exact Counts.uncounted (counts_of_stop (Or.inr hbefore) rfl) fun _ => countsIn_of_posted rfl
  rename_i hcatalog
  split
  · exact Counts.uncounted (counts_of_stop (Or.inr hbefore) rfl) fun _ => countsIn_of_posted rfl
  rename_i harchive
  split
  · exact Counts.uncounted (counts_of_stop (Or.inr hbefore) rfl) fun _ => countsIn_of_posted rfl
  rename_i hpeek
  dsimp only
  split
  · exact Counts.inRestore (.opensRestore hbefore rfl hcatalog harchive hpeek rfl rfl) hphase
      (countsIn_of_status rfl hphase)
  · exact Counts.inRestore (.opensRestore hbefore rfl hcatalog harchive hpeek rfl rfl) hphase
      (countsIn_of_posted rfl)

theorem count_restore {x : Restore} (hstage : r.stage = .working (.restore x))
    (hphase : r.phase = .restore) : KeepsCount sessions r (r.restore x sessions) := by
  have hbefore : r.stage.progress = .restoring x := by rw [hstage]; rfl
  unfold restore
  split
  · rename_i hend
    have hput : r.puts? sessions = none := by simp only [puts?, hstage, hend, if_true]
    exact Counts.inRestore (.restoresAll hbefore hend rfl (Or.inl rfl) rfl hput) hphase
      (countsIn_of_status rfl hphase)
  rename_i hend
  have hend := eq_false_of_ne_true hend
  simp only [transfer, Archive.Cursor.producer, Device.Writer.consumer]
  rcases hread : x.cursor.next with ⟨e | _ | record, cursor⟩
  · have hbackup : ∀ b, r.stage.progress ≠ .backingUp b := by simp [hbefore]
    exact Counts.uncounted (.stops (by simp [hbefore]) hbackup rfl (not_succeeds_of_error rfl)
      (archives?_of_progress hbackup) (puts?_of_read hstage hend hread))
      fun _ => countsIn_of_posted rfl
  · exact Counts.uncounted (.findsNone hbefore rfl hread rfl (puts?_of_read hstage hend hread))
      fun _ => countsIn_of_posted rfl
  have hputs : r.puts? sessions = _ := puts?_of_read hstage hend hread
  dsimp only at hputs ⊢
  rcases hput : x.writer.put (sessions x.connection) record r.bus with ⟨e | _, writer, bus⟩
  · rw [hput] at hputs
    dsimp only
    split
    · exact Counts.uncounted (.putsNot hbefore rfl (not_succeeds_of_error rfl) hread hputs)
        fun _ => countsIn_of_posted rfl
    · exact Counts.uncounted (.givesUp hbefore rfl hread rfl hputs)
        fun _ => countsIn_of_uncounted rfl rfl
  · rw [hput] at hputs
    obtain ⟨news, hpost, hnews⟩ := postBlock_news { r with bus }
      (restoringText x.destination (cursor.current.getD "")) (x.processed + 1) x.total
    simp only [if_true, hpost]
    exact Counts.inRestore (.puts hbefore rfl hread rfl hputs) hphase
      (Eq.trans (countsIn_of_news rfl hphase) hnews)

theorem conclude_eq (r : Run) (result : Except Error Unit) :
    ∃ posted, r.conclude result = { r with
      phases := (conclusion result).2 :: r.phases
      report := { r.report with outcome := (conclusion result).1 }
      posted
      stage := .finished } := by
  unfold conclude
  dsimp only
  split
  · exact ⟨_, rfl⟩
  · exact ⟨_, rfl⟩

theorem succeeds_of_ending {result : Except Error Unit} (h : r.stage = .ending result) :
    r.Succeeds ↔ (conclusion result).1 = .completed := by
  constructor
  · rintro (hstage | ⟨hstage, -⟩)
    · obtain rfl := Stage.ending.inj (h.symm.trans hstage)
      rfl
    · cases h.symm.trans hstage
  · intro hcompleted
    rcases conclusion_cases result with ⟨rfl, -⟩ | ⟨-, hresult⟩ | ⟨reason, hresult⟩
    · exact Or.inl h
    · rw [hresult] at hcompleted
      cases hcompleted
    · rw [hresult] at hcompleted
      cases hcompleted

/-- What a migration says at its end is no count of a phase. -/
theorem count_conclude {result : Except Error Unit} (hstage : r.stage = .ending result) :
    KeepsCount sessions r (r.conclude result) := by
  obtain ⟨posted, hconclude⟩ := r.conclude_eq result
  have hlast : (conclusion result).2 ≠ .backup ∧ (conclusion result).2 ≠ .restore := by
    rcases conclusion_cases result with ⟨-, h⟩ | ⟨-, h⟩ | ⟨reason, h⟩
    all_goals
      rw [h]
      exact ⟨nofun, nofun⟩
  have hphase : (r.conclude result).phase = (conclusion result).2 := by
    rw [hconclude]
    rfl
  rw [KeepsCount, countsIn_of_phase (hphase ▸ hlast.1), countsIn_of_phase (hphase ▸ hlast.2),
    hconclude]
  refine .stays (by rw [hstage]; rfl) ?_ rfl (archives?_of_stage hstage fun _ => nofun)
    (puts?_of_stage hstage fun _ => nofun)
  rw [succeeds_of_ending hstage]
  exact ⟨fun h => (h.resolve_left nofun).2, fun h => Or.inr ⟨rfl, h⟩⟩

/-- Every step keeps count. -/
theorem counts_step (hr : r.OnCourse) (sessions : Device.Bus.Sessions) :
    KeepsCount sessions r (r.step sessions) := by
  unfold OnCourse at hr
  cases hquiet : r.stage.isCounting with
  | false =>
    exact Counts.uncounted ((moves_step r sessions).counts hquiet) fun _ => uncounted_step hquiet
  | true =>
    cases hstage : r.stage with
    | working task =>
      rw [hstage] at hquiet hr
      cases task with
      | backUp b =>
        rw [show r.step sessions = r.backUp b sessions by simp only [step, hstage, perform]]
        exact count_backUp hstage (phase_of_entered [] hr)
      | restore x =>
        rw [show r.step sessions = r.restore x sessions by simp only [step, hstage, perform]]
        exact count_restore hstage (phase_of_entered [.backup, .resolveDestination] hr)
      | _ => cases hquiet
    | taking side id =>
      cases hfree : r.bus.acquire? id with
      | none =>
        rw [show r.step sessions = r by simp only [step, hstage, hfree]]
        refine Counts.uncounted (.stays rfl Iff.rfl rfl (archives?_of_stage hstage fun _ => nofun)
          (puts?_of_stage hstage fun _ => nofun)) fun _ => countsIn_of_posted rfl
      | some bus =>
        rw [hstage] at hr
        cases side with
        | source =>
          rw [show r.step sessions = { r with bus }.openBackup id sessions by
            simp only [step, hstage, hfree]]
          exact count_openBackup hstage (phase_of_entered [] hr)
        | destination info =>
          rw [show r.step sessions = { r with bus }.openRestore info id sessions by
            simp only [step, hstage, hfree]]
          exact count_openRestore hstage
            (phase_of_entered [.backup, .resolveDestination] hr)
    | closing b result =>
      rw [hstage] at hquiet hr
      cases result with
      | ok =>
        rw [show r.step sessions = r.closeBackup b (.ok ()) by simp only [step, hstage]]
        exact count_closeBackup hstage (phase_of_entered [] hr.1)
      | error => cases hquiet
    | ending result =>
      rw [show r.step sessions = r.conclude result by simp only [step, hstage]]
      exact count_conclude hstage
    | _ =>
      rw [hstage] at hquiet
      cases hquiet

end Run

end Palmtop.Migration
