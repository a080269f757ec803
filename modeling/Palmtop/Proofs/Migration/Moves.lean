import Palmtop.Proofs.Migration.History

/-! # What the worker can do next

`Run.Moves` has one rule for each thing the worker of a migration can do in one step, with all that
has come of it but the events posted (`Run.moves_step`).  A property that holds of the worker all the
time is shown rule by rule.
-/
namespace Palmtop.Migration

/-- Whether the task works on a backup or a restore that is under way. -/
def Task.isUnderWay : Task → Bool
  | .backUp _ | .restore _ => true
  | _ => false

/-- Whether the worker waits for the user. -/
def Stage.isAwaiting : Stage → Bool
  | .awaitingPassword _ _ | .awaitingDestination _ => true
  | _ => false

/-- Whether the worker may have nothing to do. -/
def Stage.isIdle : Stage → Bool
  | .awaitingPassword _ _ | .awaitingDestination _ | .taking _ _ | .finished => true
  | _ => false

/-- The restore under way. -/
def Stage.restore? : Stage → Option Restore
  | .checking (.restore x) | .working (.restore x) => some x
  | _ => none

namespace Run

/-- One step of the worker. -/
inductive Moves (sessions : Device.Bus.Sessions) (r : Run) : Run → Prop where
  /-- It waits, or is through. -/
  | rests (stage : r.stage.isIdle = true) : Moves sessions r r
  -- looking whether it was cancelled
  | proceeds {task : Task} (stage : r.stage = .checking task) (going : r.cancelled = false) :
      Moves sessions r (r.goTo (.working task))
  | drops {task : Task} (stage : r.stage = .checking task) (cancelled : r.cancelled = true)
      (idle : task.isUnderWay = false) :
      Moves sessions r { r with stage := .ending (.error .cancelled) }
  | dropsBackup {b : Backup} (stage : r.stage = .checking (.backUp b))
      (cancelled : r.cancelled = true) :
      Moves sessions r { r with stage := .closing b (.error .cancelled) }
  | dropsRestore {x : Restore} (stage : r.stage = .checking (.restore x))
      (cancelled : r.cancelled = true) :
      Moves sessions r
        { r with bus := r.bus.release x.connection, stage := .ending (.error .cancelled) }
  -- from phase to phase
  | entersBackup (stage : r.stage = .working .enterBackup) :
      Moves sessions r
        { r with phases := .backup :: r.phases, stage := .checking (.connect .source none) }
  | entersResolve {posted : List Event} (stage : r.stage = .working .enterResolve) :
      Moves sessions r
        { r with phases := .resolveDestination :: r.phases, posted, stage := .checking .ask }
  /-- The plan names a destination that is not the source. -/
  | settles {destination : DeviceInfo} (stage : r.stage = .working .enterResolve)
      (other : destination.pin ≠ r.plan.source.pin) :
      Moves sessions r { r with
        phases := .resolveDestination :: r.phases
        stage := .checking (.enterRestore destination) }
  | entersRestore {destination : DeviceInfo}
      (stage : r.stage = .working (.enterRestore destination)) :
      Moves sessions r { r with
        phases := .restore :: r.phases
        stage := .checking (.connect (.destination destination) none) }
  -- connecting
  | connects {side : Side} {password : Option String} {id : Device.ConnectionId} {bus : Device.Bus}
      (stage : r.stage = .working (.connect side password))
      (connect : r.bus.connect (r.deviceAt side) password = (.ok id, bus)) :
      Moves sessions r { r with bus, stage := .taking side id }
  | locked {side : Side} {password : Option String} {e : Device.Error} {bus : Device.Bus}
      {posted : List Event} {gate : Handoff String}
      (stage : r.stage = .working (.connect side password))
      (connect : r.bus.connect (r.deviceAt side) password = (.error e, bus)) :
      Moves sessions r { r with bus, posted, stage := .awaitingPassword side gate }
  | connectsNot {side : Side} {password : Option String} {e : Device.Error} {bus : Device.Bus}
      (stage : r.stage = .working (.connect side password))
      (connect : r.bus.connect (r.deviceAt side) password = (.error e, bus)) :
      Moves sessions r { r with bus, stage := .ending (.error (.device e)) }
  | unlocks {side : Side} {gate : Handoff String} {password : Option String}
      (stage : r.stage = .awaitingPassword side gate) :
      Moves sessions r { r with stage := .checking (.connect side password) }
  -- settling on a destination
  | asks {posted : List Event} {gate : Handoff DeviceInfo} (stage : r.stage = .working .ask) :
      Moves sessions r { r with posted, stage := .awaitingDestination gate }
  /-- The answer is the source. -/
  | rejects {posted : List Event} {gate : Handoff DeviceInfo}
      (stage : r.stage = .awaitingDestination gate) :
      Moves sessions r { r with posted, stage := .checking .ask }
  | chooses {gate : Handoff DeviceInfo} {destination : DeviceInfo}
      (stage : r.stage = .awaitingDestination gate)
      (other : destination.pin ≠ r.plan.source.pin) :
      Moves sessions r { r with stage := .checking (.enterRestore destination) }
  | abandons (stage : r.stage.isAwaiting = true) :
      Moves sessions r { r with cancelled := true, stage := .ending (.error .cancelled) }
  -- backing up
  | opensBackup {id : Device.ConnectionId} {bus bus' : Device.Bus} {entries : List CatalogEntry}
      {writer : Archive.Writer} {files : Files} {total : Nat} {posted : List Event}
      (stage : r.stage = .taking .source id) (taken : r.bus.acquire? id = some bus)
      (catalog : (sessions id).catalog bus = (.ok entries, bus'))
      (created : Archive.Writer.create r.plan.archivePath r.files = (.ok writer, files)) :
      Moves sessions r { r with
        bus := bus', files, posted
        stage := .working (.backUp
          { connection := id, reader := .ofNames (entries.map (·.name)), writer, total }) }
  | opensNoBackup {id : Device.ConnectionId} {bus bus' : Device.Bus}
      {answer : Except Device.Error (List CatalogEntry)} {files : Files} {e : Error}
      (stage : r.stage = .taking .source id) (taken : r.bus.acquire? id = some bus)
      (catalog : (sessions id).catalog bus = (answer, bus')) (failed : e ≠ .cancelled) :
      Moves sessions r { r with bus := bus'.release id, files, stage := .ending (.error e) }
  | reachesEnd {b : Backup} (stage : r.stage = .working (.backUp b))
      (ended : b.reader.ended = true) :
      Moves sessions r { r with stage := .closing b (.ok ()) }
  | passes {b : Backup} {reader : Device.Reader} {bus : Device.Bus}
      (stage : r.stage = .working (.backUp b)) (ended : b.reader.ended = false)
      (read : b.reader.next (sessions b.connection) r.bus = (.ok none, reader, bus)) :
      Moves sessions r { r with bus, stage := .checking (.backUp { b with reader }) }
  | archives {b : Backup} {reader : Device.Reader} {bus : Device.Bus} {record : Record}
      {writer : Archive.Writer} {posted : List Event} (stage : r.stage = .working (.backUp b))
      (ended : b.reader.ended = false)
      (read : b.reader.next (sessions b.connection) r.bus = (.ok (some record), reader, bus))
      (put : b.writer.put record = (.ok (), writer)) :
      Moves sessions r { r with
        bus, posted
        stage := .checking (.backUp
          { b with reader, writer, processed := b.processed + 1 }) }
  | archivesNot {b : Backup} {answer : Except Device.Error (Option Record)}
      {reader : Device.Reader} {bus : Device.Bus} {writer : Archive.Writer} {e : Error}
      (stage : r.stage = .working (.backUp b)) (ended : b.reader.ended = false)
      (read : b.reader.next (sessions b.connection) r.bus = (answer, reader, bus))
      (lost : ∀ record, answer = .ok (some record) → ∃ e, b.writer.put record = (.error e, writer))
      (failed : e ≠ .cancelled) :
      Moves sessions r
        { r with bus, stage := .closing { b with reader, writer } (.error e) }
  | closes {b : Backup} {posted : List Event} (stage : r.stage = .closing b (.ok ())) :
      Moves sessions r { r with
        bus := r.bus.release b.connection
        files := (b.writer.finish r.files).2
        report := { r.report with
          backedUp := b.processed, archivePath := some r.plan.archivePath }
        posted
        stage := .checking .enterResolve }
  | breaksOff {b : Backup} {e : Error} {files : Files} (stage : r.stage = .closing b (.error e)) :
      Moves sessions r { r with
        bus := r.bus.release b.connection, files
        report := { r.report with backedUp := b.processed }
        stage := .ending (.error e) }
  -- restoring
  | opensRestore {destination : DeviceInfo} {id : Device.ConnectionId} {bus bus' : Device.Bus}
      {entries : List CatalogEntry} {total : Nat} {cursor cursor' : Archive.Cursor}
      {database : Option String} {posted : List Event}
      (stage : r.stage = .taking (.destination destination) id)
      (taken : r.bus.acquire? id = some bus)
      (catalog : (sessions id).catalog bus = (.ok entries, bus'))
      (archive : r.openArchive (entries.map (·.name)) = .ok (total, cursor))
      (peeked : cursor.peek = (.ok database, cursor')) :
      Moves sessions r { r with
        bus := bus', posted
        stage := .working (.restore
          { destination, connection := id, cursor := cursor', writer := { mode := r.plan.writeMode },
            total }) }
  | opensNoRestore {destination : DeviceInfo} {id : Device.ConnectionId} {bus bus' : Device.Bus}
      {answer : Except Device.Error (List CatalogEntry)} {e : Error}
      (stage : r.stage = .taking (.destination destination) id)
      (taken : r.bus.acquire? id = some bus)
      (catalog : (sessions id).catalog bus = (answer, bus')) (failed : e ≠ .cancelled) :
      Moves sessions r { r with bus := bus'.release id, stage := .ending (.error e) }
  | restoresAll {x : Restore} {posted : List Event} (stage : r.stage = .working (.restore x)) :
      Moves sessions r
        { r with bus := r.bus.release x.connection, posted, stage := .ending (.ok ()) }
  | skips {x : Restore} {cursor : Archive.Cursor} (stage : r.stage = .working (.restore x))
      (read : x.cursor.next = (.ok none, cursor)) :
      Moves sessions r { r with
        report := { r.report with restored := x.writer.written }
        stage := .checking (.restore { x with cursor }) }
  | puts {x : Restore} {cursor : Archive.Cursor} {record : Record} {writer : Device.Writer}
      {bus : Device.Bus} {processed : Nat} {posted : List Event}
      (stage : r.stage = .working (.restore x))
      (read : x.cursor.next = (.ok (some record), cursor))
      (put : x.writer.put (sessions x.connection) record r.bus = (.ok (), writer, bus)) :
      Moves sessions r { r with
        bus, posted
        report := { r.report with restored := writer.written }
        stage := .checking (.restore { x with cursor, writer, processed }) }
  /-- A refusal that is not fatal gives up the database. -/
  | givesUp {x : Restore} {cursor : Archive.Cursor} {record : Record} {writer : Device.Writer}
      {bus : Device.Bus} {e : Device.Error} {posted : List Event}
      (stage : r.stage = .working (.restore x))
      (read : x.cursor.next = (.ok (some record), cursor))
      (put : x.writer.put (sessions x.connection) record r.bus = (.error e, writer, bus)) :
      Moves sessions r { r with
        bus, posted
        report := { r.report with
          restored := writer.written, skipped := r.report.skipped ++ [record.database] }
        stage := .checking (.restore { x with cursor := cursor.skip, writer }) }
  | putsNot {x : Restore} {cursor : Archive.Cursor} {record : Record} {writer : Device.Writer}
      {bus : Device.Bus} {e : Device.Error} (stage : r.stage = .working (.restore x))
      (read : x.cursor.next = (.ok (some record), cursor))
      (put : x.writer.put (sessions x.connection) record r.bus = (.error e, writer, bus)) :
      Moves sessions r
        { r with bus := bus.release x.connection, stage := .ending (.error (.device e)) }
  | readsNot {x : Restore} {e : Archive.Error} (stage : r.stage = .working (.restore x)) :
      Moves sessions r
        { r with bus := r.bus.release x.connection, stage := .ending (.error (.archive e)) }
  -- the end
  | concludes {result : Except Error Unit} {posted : List Event} (stage : r.stage = .ending result) :
      Moves sessions r { r with
        phases := (conclusion result).2 :: r.phases
        report := { r.report with outcome := (conclusion result).1 }
        posted
        stage := .finished }

variable {r : Run} {sessions : Device.Bus.Sessions}

theorem postBlock_eq (r : Run) (text : String) (processed total : Nat) :
    ∃ posted, r.postBlock text processed total = { r with posted } := by
  unfold postBlock
  split
  · exact ⟨_, rfl⟩
  · exact ⟨r.posted, rfl⟩

/-! ## Step by step -/

theorem moves_drop {task : Task} (hstage : r.stage = .checking task) (hc : r.cancelled = true) :
    r.Moves sessions (r.drop task) := by
  cases task with
  | backUp b => exact .dropsBackup hstage hc
  | restore x => exact .dropsRestore hstage hc
  | enterBackup => exact .drops hstage hc rfl
  | enterResolve => exact .drops hstage hc rfl
  | enterRestore destination => exact .drops hstage hc rfl
  | connect side password => exact .drops hstage hc rfl
  | ask => exact .drops hstage hc rfl

theorem moves_resolve (hstage : r.stage = .working .enterResolve) :
    r.Moves sessions (r.enter .resolveDestination).resolve := by
  unfold resolve
  split
  · exact .entersResolve hstage
  split
  · exact .entersResolve hstage
  · rename_i hother
    exact .settles hstage hother

theorem moves_connect {side : Side} {password : Option String}
    (hstage : r.stage = .working (.connect side password)) :
    r.Moves sessions (r.connect side password) := by
  unfold connect
  dsimp only
  split
  · rename_i hconnect
    exact .connects hstage hconnect
  · rename_i hconnect
    split
    · exact .connectsNot hstage hconnect
    · exact .locked hstage hconnect

theorem moves_takePassword {side : Side} {gate : Handoff String}
    (hstage : r.stage = .awaitingPassword side gate) (answer : Option String) :
    r.Moves sessions (r.takePassword side answer) := by
  have hawaiting : r.stage.isAwaiting = true := by rw [hstage]; rfl
  unfold takePassword
  split
  · split
    · exact .abandons hawaiting
    · exact .unlocks hstage
  · exact .abandons hawaiting

theorem moves_takeDestination {gate : Handoff DeviceInfo}
    (hstage : r.stage = .awaitingDestination gate) (answer : Option DeviceInfo) :
    r.Moves sessions (r.takeDestination answer) := by
  unfold takeDestination
  split
  · exact .abandons (by rw [hstage]; rfl)
  split
  · exact .rejects hstage
  · rename_i hother
    exact .chooses hstage hother

theorem moves_openBackup {id : Device.ConnectionId} {bus : Device.Bus}
    (hstage : r.stage = .taking .source id) (htaken : r.bus.acquire? id = some bus) :
    r.Moves sessions ({ r with bus }.openBackup id sessions) := by
  unfold openBackup
  split
  · rename_i hcatalog
    exact .opensNoBackup hstage htaken hcatalog nofun
  rename_i hcatalog
  split
  · exact .opensNoBackup hstage htaken hcatalog nofun
  · rename_i hcreated
    exact .opensBackup hstage htaken hcatalog hcreated

theorem moves_backUp {b : Backup} (hstage : r.stage = .working (.backUp b)) :
    r.Moves sessions (r.backUp b sessions) := by
  unfold backUp
  split
  · rename_i hended
    exact .reachesEnd hstage hended
  rename_i hended
  have hended := eq_false_of_ne_true hended
  simp only [transfer, Device.Reader.producer, Archive.Writer.consumer]
  rcases hread : b.reader.next (sessions b.connection) r.bus with ⟨e | _ | record, reader, bus⟩
  · exact .archivesNot hstage hended hread nofun nofun
  · exact .passes hstage hended hread
  · dsimp only
    rcases hput : b.writer.put record with ⟨e | _, writer⟩
    · refine .archivesNot hstage hended hread ?_ nofun
      rintro _ ⟨⟩
      exact ⟨e, hput⟩
    · obtain ⟨posted, hpost⟩ := postBlock_eq { r with bus }
        (backingUpText r.plan.source (reader.current?.getD "")) (b.processed + 1) b.total
      dsimp only
      rw [hpost]
      exact .archives hstage hended hread hput

theorem moves_closeBackup {b : Backup} {result : Except Error Unit}
    (hstage : r.stage = .closing b result) : r.Moves sessions (r.closeBackup b result) := by
  cases result with
  | ok => exact .closes hstage
  | error e => exact .breaksOff hstage

theorem moves_openRestore {destination : DeviceInfo} {id : Device.ConnectionId} {bus : Device.Bus}
    (hstage : r.stage = .taking (.destination destination) id)
    (htaken : r.bus.acquire? id = some bus) :
    r.Moves sessions ({ r with bus }.openRestore destination id sessions) := by
  unfold openRestore
  split
  · rename_i hcatalog
    exact .opensNoRestore hstage htaken hcatalog nofun
  rename_i hcatalog
  split
  · exact .opensNoRestore hstage htaken hcatalog nofun
  rename_i harchive
  split
  · exact .opensNoRestore hstage htaken hcatalog nofun
  rename_i hpeek
  dsimp only
  split
  · exact .opensRestore hstage htaken hcatalog harchive hpeek
  · exact .opensRestore hstage htaken hcatalog harchive hpeek

theorem moves_restore {x : Restore} (hstage : r.stage = .working (.restore x)) :
    r.Moves sessions (r.restore x sessions) := by
  unfold restore
  split
  · exact .restoresAll hstage
  simp only [transfer, Archive.Cursor.producer, Device.Writer.consumer]
  rcases hread : x.cursor.next with ⟨e | _ | record, cursor⟩
  · exact .readsNot hstage
  · exact .skips hstage hread
  · dsimp only
    rcases hput : x.writer.put (sessions x.connection) record r.bus with ⟨e | _, writer, bus⟩
    · dsimp only
      split
      · exact .putsNot hstage hread hput
      · exact .givesUp hstage hread hput
    · obtain ⟨posted, hpost⟩ := postBlock_eq { r with bus }
        (restoringText x.destination (cursor.current.getD "")) (x.processed + 1) x.total
      simp only [if_true, hpost]
      exact .puts hstage hread hput

theorem moves_perform {task : Task} (hstage : r.stage = .working task) :
    r.Moves sessions (r.perform task sessions) := by
  cases task with
  | enterBackup => exact .entersBackup hstage
  | enterResolve => exact moves_resolve hstage
  | enterRestore destination => exact .entersRestore hstage
  | connect side password => exact moves_connect hstage
  | ask => exact .asks hstage
  | backUp b => exact moves_backUp hstage
  | restore x => exact moves_restore hstage

theorem moves_conclude {result : Except Error Unit} (hstage : r.stage = .ending result) :
    r.Moves sessions (r.conclude result) := by
  unfold conclude
  dsimp only
  split
  · exact .concludes hstage
  · exact .concludes hstage

/-- **What the worker can do next.** -/
theorem moves_step (r : Run) (sessions : Device.Bus.Sessions) :
    r.Moves sessions (r.step sessions) := by
  unfold step
  split
  · rename_i task hstage
    split
    · rename_i hc
      exact moves_drop hstage hc
    · rename_i hc
      exact .proceeds hstage (eq_false_of_ne_true hc)
  · rename_i hstage
    exact moves_perform hstage
  · rename_i hstage
    split
    · exact .rests (by rw [hstage]; rfl)
    · exact moves_takePassword hstage _
  · rename_i hstage
    split
    · exact .rests (by rw [hstage]; rfl)
    · exact moves_takeDestination hstage _
  · rename_i hstage
    split
    · exact .rests (by rw [hstage]; rfl)
    rename_i htaken
    split
    · exact moves_openBackup hstage htaken
    · exact moves_openRestore hstage htaken
  · rename_i hstage
    exact moves_closeBackup hstage
  · rename_i hstage
    exact moves_conclude hstage
  · rename_i hstage
    exact .rests (by rw [hstage]; rfl)

theorem Moves.plan {r' : Run} (h : r.Moves sessions r') : r'.plan = r.plan := by
  cases h <;> rfl

/-- A turn is the worker's, or stirs the run. -/
theorem turn_cases (r : Run) (t : Turn) :
    (∃ refusals, t = .work refusals ∧
      r.Moves (Device.Bus.sessionsWith refusals) (r.turn t)) ∨
    (∀ refusals, t ≠ .work refusals) ∧ r.Stirs (r.turn t) := by
  cases t with
  | work refusals => exact Or.inl ⟨refusals, rfl, moves_step r _⟩
  | incident incident => exact Or.inr ⟨nofun, r.stirs_suffer incident⟩
  | reply reply => exact Or.inr ⟨nofun, r.stirs_receive (some reply)⟩
  | leave => exact Or.inr ⟨nofun, r.stirs_stopListening⟩

/-- What every turn preserves holds in the end. -/
theorem after_of_turn {P : Run → Prop} (hturn : ∀ r t, P r → P (r.turn t)) {r : Run} (h : P r)
    (turns : List Turn) : P (r.after turns) := by
  induction turns generalizing r with
  | nil => exact h
  | cons t turns ih => exact ih (hturn r t h)

theorem plan_turn (r : Run) (t : Turn) : (r.turn t).plan = r.plan := by
  rcases r.turn_cases t with ⟨refusals, -, hmoves⟩ | ⟨-, hstirs⟩
  · exact hmoves.plan
  · exact hstirs.plan

theorem plan_after (r : Run) (turns : List Turn) : (r.after turns).plan = r.plan :=
  after_of_turn (P := fun x => x.plan = r.plan) (fun x t h => (x.plan_turn t).trans h) rfl turns

theorem finished_of_isOver {r : Run} (h : r.isOver = true) : r.stage = .finished := by
  unfold isOver at h
  split at h
  · rename_i hstage
    exact hstage
  · cases h

/-! ## What is heard of it -/

section heard

variable {refusals : Device.Bus.Refusals} {id : Device.ConnectionId} {bus bus' : Device.Bus}

open Device.Bus (sessionsWith notes_sessionsWith talks_self)

/-- No device hears of a change, and none comes. -/
structure Hushed (bus bus' : Device.Bus) : Prop where
  quiet : ∃ news, bus.Hears news bus' ∧ ∀ n, ∀ e ∈ news n, e.command.isMutation = false
  length : bus'.devices.length = bus.devices.length

theorem hushed_of_hears (h : bus.Hears (fun _ => []) bus')
    (hlength : bus'.devices.length = bus.devices.length) : Hushed bus bus' :=
  ⟨⟨_, h, fun _ => List.forall_mem_nil _⟩, hlength⟩

theorem Hushed.trans {bus'' : Device.Bus} (h : Hushed bus bus') (h' : Hushed bus' bus'') :
    Hushed bus bus'' := by
  obtain ⟨⟨news, hnews, hquiet⟩, hlength⟩ := h
  obtain ⟨⟨more, hmore, hquiet'⟩, hlength'⟩ := h'
  exact ⟨⟨_, hnews.trans hmore, fun n e he =>
    (List.mem_append.mp he).elim (hquiet' n e) (hquiet n e)⟩, hlength'.trans hlength⟩

theorem hushed_connect {info : DeviceInfo} {password : Option String}
    {answer : Except Device.Error Device.ConnectionId}
    (h : bus.connect info password = (answer, bus')) : Hushed bus bus' := by
  have hconnect := Device.Bus.hears_connect bus info password
  have hlength := Device.Bus.length_connect bus info password
  rw [h] at hconnect hlength
  exact hushed_of_hears hconnect hlength

theorem hushed_acquire (h : bus.acquire? id = some bus') : Hushed bus bus' :=
  hushed_of_hears (Device.Bus.hears_acquire h)
    (congrArg List.length (Device.Bus.devices_acquire h))

theorem hushed_release (bus : Device.Bus) (id : Device.ConnectionId) :
    Hushed bus (bus.release id) :=
  hushed_of_hears (Device.Bus.hears_release bus id) rfl

/-- What changes no record is said over a connection. -/
theorem hushed_of_quietly (h : Device.Quietly (Device.Bus.Talks id) bus bus') :
    Hushed bus bus' := by
  obtain ⟨said, htalks, hquiet⟩ := h
  refine ⟨⟨_, htalks.hears, fun n e he => ?_⟩, htalks.length⟩
  unfold Device.Bus.newsAt at he
  split at he
  · exact hquiet e he
  · cases he

theorem hushed_catalog {answer : Except Device.Error (List CatalogEntry)}
    (h : (sessionsWith refusals id).catalog bus = (answer, bus')) : Hushed bus bus' :=
  hushed_of_quietly ((notes_sessionsWith refusals id).look
    ⟨[], talks_self id bus, List.forall_mem_nil _⟩ h rfl)

theorem hushed_next {reader reader' : Device.Reader}
    {answer : Except Device.Error (Option Record)}
    (h : reader.next (sessionsWith refusals id) bus = (answer, reader', bus')) :
    Hushed bus bus' := by
  have hnotes := Device.Reader.next_notes (notes_sessionsWith refusals id) reader
    ⟨[], talks_self id bus, List.forall_mem_nil _⟩
  rw [h] at hnotes
  exact hushed_of_quietly hnotes

/-- What is said when a record is put, and what comes of the writer's count. -/
theorem talks_put {writer writer' : Device.Writer} {record : Record}
    {answer : Except Device.Error Unit}
    (h : writer.put (sessionsWith refusals id) record bus = (answer, writer', bus')) :
    ∃ said, Device.Bus.Talks id said bus bus' ∧
      writer'.written = writer.written + said.countP Device.Exchange.stores ∧
      ((∃ e, answer = .error e) → writer'.written = writer.written) := by
  have hcounts := Device.Writer.put_notes (notes_sessionsWith refusals id) writer record
    (s := bus) (n := 0) ⟨[], talks_self id bus, rfl⟩
  rw [h] at hcounts
  obtain ⟨⟨m, ⟨said, htalks, hsaid⟩, hwritten⟩, hrefused⟩ := hcounts
  rw [Nat.zero_add] at hsaid
  refine ⟨said, htalks, hsaid ▸ hwritten, ?_⟩
  rintro ⟨e, rfl⟩
  exact hrefused rfl

/-- Only the device that is restored into hears of changes, and they are counted. -/
theorem Moves.heard {r' : Run} (h : r.Moves (sessionsWith refusals) r') :
    Hushed r.bus r'.bus ∧ r'.report.restored = r.report.restored ∨
    ∃ x said, r.stage = .working (.restore x) ∧
      r.bus.Hears (r.bus.newsAt x.connection said) r'.bus ∧
      (x.writer.written = r.report.restored →
        r'.report.restored = r.report.restored + said.countP Device.Exchange.stores) := by
  have hstays : Hushed r.bus r.bus := hushed_of_hears (Device.Bus.hears_self r.bus) rfl
  cases h with
  | rests | proceeds | drops | dropsBackup | entersBackup | entersResolve | settles | entersRestore
  | unlocks | asks | rejects | chooses | abandons | reachesEnd | concludes =>
    exact Or.inl ⟨hstays, rfl⟩
  | dropsRestore | closes | breaksOff | restoresAll | readsNot =>
    exact Or.inl ⟨hushed_release r.bus _, rfl⟩
  | connects _ connect | locked _ connect | connectsNot _ connect =>
    exact Or.inl ⟨hushed_connect connect, rfl⟩
  | opensBackup _ taken catalog | opensRestore _ taken catalog =>
    exact Or.inl ⟨(hushed_acquire taken).trans (hushed_catalog catalog), rfl⟩
  | opensNoBackup _ taken catalog | opensNoRestore _ taken catalog =>
    exact Or.inl ⟨((hushed_acquire taken).trans (hushed_catalog catalog)).trans
      (hushed_release _ _), rfl⟩
  | passes _ _ read | archives _ _ read | archivesNot _ _ read =>
    exact Or.inl ⟨hushed_next read, rfl⟩
  | skips stage =>
    refine Or.inr ⟨_, [], stage, (talks_self _ r.bus).hears, ?_⟩
    exact id
  | puts stage _ put | givesUp stage _ put =>
    obtain ⟨said, htalks, hwritten, -⟩ := talks_put put
    exact Or.inr ⟨_, said, stage, htalks.hears, fun h => h ▸ hwritten⟩
  | putsNot stage _ put =>
    obtain ⟨said, htalks, hwritten, hrefused⟩ := talks_put put
    have hnone := hwritten.symm.trans (hrefused ⟨_, rfl⟩)
    refine Or.inr ⟨_, said, stage, ?_, fun _ => ?_⟩
    · simpa using htalks.hears.trans (Device.Bus.hears_release _ _)
    · exact (Nat.add_eq_left.mp hnone) ▸ rfl

theorem Moves.hears {r' : Run} (h : r.Moves (sessionsWith refusals) r') :
    ∃ news, r.bus.Hears news r'.bus := by
  rcases h.heard with ⟨⟨⟨news, hhears, -⟩, -⟩, -⟩ | ⟨x, said, -, hhears, -⟩
  · exact ⟨news, hhears⟩
  · exact ⟨_, hhears⟩

end heard

end Run

end Palmtop.Migration
