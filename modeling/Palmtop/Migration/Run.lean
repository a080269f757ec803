import Palmtop.Archive.Cursor
import Palmtop.Archive.Writer
import Palmtop.Device.Bus
import Palmtop.Device.Reader
import Palmtop.Device.Writer
import Palmtop.Handoff
import Palmtop.Migration.Error
import Palmtop.Migration.Event
import Palmtop.Migration.Phase
import Palmtop.Migration.Plan
import Palmtop.Migration.Report

/-! # Running a migration

A migration backs the source up into an archive, settles on a destination and restores the archive
into it.  `Run` is its state and `Run.step` what its worker does next, in pieces small enough that
everything others can see or do falls between two of them: cancelling, answering a question,
changing a device, plugging one in, touching a file.

* Before each phase, each attempt to connect, each question and after each record the worker looks
  whether it was cancelled (`Stage.checking`).
* A question waits on a handoff.  While it waits, the worker holds no device.
* What fails in the backup takes the unfinished archive with it.  In the restore, a refusal that is
  not fatal gives up the database it hit and nothing else.
* Whatever happens, the run ends with its outcome in the report, a last phase and a last status.

A worker that waits does not move: its step changes nothing.

The worker talks to devices over the sessions of the bus.  Any others may be put in their place, for
one step or for all, such as sessions that refuse some of the commands.
-/
namespace Palmtop.Migration

/-- The two ends of a migration. -/
inductive Side where
  | source
  | destination (info : DeviceInfo)

/-- A backup under way. -/
structure Backup where
  connection : Device.ConnectionId
  reader : Device.Reader
  writer : Archive.Writer
  /-- Records in the archive. -/
  processed : Nat := 0
  /-- Records the catalog announced. -/
  total : Nat

/-- A restore under way. -/
structure Restore where
  destination : DeviceInfo
  connection : Device.ConnectionId
  cursor : Archive.Cursor
  writer : Device.Writer
  /-- Records the writer took. -/
  processed : Nat := 0
  /-- Records of the archive in databases the destination has. -/
  total : Nat

/-- A piece of work that is preceded by a look at the cancellation. -/
inductive Task where
  | enterBackup
  | enterResolve
  | enterRestore (destination : DeviceInfo)
  | connect (side : Side) (password : Option String)
  /-- Ask for a destination. -/
  | ask
  /-- Move one record into the archive, or end the backup. -/
  | backUp (backup : Backup)
  /-- Move one record to the destination, or end the restore. -/
  | restore (restore : Restore)

/-- Where the worker stands. -/
inductive Stage where
  /-- About to look whether it was cancelled. -/
  | checking (task : Task)
  /-- About to work. -/
  | working (task : Task)
  | awaitingPassword (side : Side) (gate : Handoff String)
  | awaitingDestination (gate : Handoff DeviceInfo)
  /-- Connected, and about to take the device as soon as nobody holds it. -/
  | taking (side : Side) (connection : Device.ConnectionId)
  /-- Gives the source back and finishes the archive, or removes it. -/
  | closing (backup : Backup) (result : Except Error Unit)
  /-- About to report. -/
  | ending (result : Except Error Unit)
  | finished

/-- A migration under way and everything it works on. -/
structure Run where
  plan : Plan
  bus : Device.Bus
  files : Files
  stage : Stage := .checking .enterBackup
  /-- The phases so far, the latest first. -/
  phases : List Phase := [.idle]
  report : Report := {}
  cancelled : Bool := false
  /-- Whether somebody receives the events. -/
  listening : Bool := true
  /-- The events so far, the latest first. -/
  posted : List Event := []

namespace Run

/-! ## Small moves -/

/-- The phase the run is in. -/
def phase (r : Run) : Phase := r.phases.headD .idle

/-- The run with the worker somewhere else. -/
def goTo (r : Run) (stage : Stage) : Run := { r with stage }

/-- The run with one more event. -/
def post (r : Run) (event : Event) : Run := { r with posted := event :: r.posted }

/-- The run in its next phase. -/
def enter (r : Run) (phase : Phase) : Run := { r with phases := phase :: r.phases }

/-- The run about to end with this error. -/
def fail (r : Run) (error : Error) : Run := r.goTo (.ending (.error error))

/-- The run given up by the user, for everybody to see. -/
def abandon (r : Run) : Run := { r.fail .cancelled with cancelled := true }

/-- The device at a side. -/
def deviceAt (r : Run) : Side → DeviceInfo
  | .source => r.plan.source
  | .destination info => info

/-- The run after a record was counted; every `blockSize` records there is a status. -/
def postBlock (r : Run) (text : String) (processed total : Nat) : Run :=
  if processed % r.plan.blockSize = 0 then r.post (.status text processed total) else r

/-! ## Connecting -/

/-- Tries to connect, and asks for a password if the device wants one. -/
def connect (r : Run) (side : Side) (password : Option String) : Run :=
  let info := r.deviceAt side
  match r.bus.connect info password with
  | (.ok id, bus) => { r with bus, stage := .taking side id }
  | (.error e, bus) =>
    let r := { r with bus }
    match e.passwordTries with
    | none => r.fail (.device e)
    | some tries =>
      (r.post (.passwordRequest info tries)).goTo
        (.awaitingPassword side { answering := r.listening })

/-- Goes on with the answer to a password request; an empty one gives up. -/
def takePassword (r : Run) (side : Side) (answer : Option String) : Run :=
  match answer with
  | some password =>
    if password.isEmpty then r.abandon else r.goTo (.checking (.connect side (some password)))
  | none => r.abandon

/-! ## Backing up -/

/-- Starts a backup of the device just taken. -/
def openBackup (r : Run) (id : Device.ConnectionId)
    (sessions : Device.Bus.Sessions := Device.Bus.session) : Run :=
  match (sessions id).catalog r.bus with
  | (.error e, bus) => { r with bus := bus.release id }.fail (.device e)
  | (.ok entries, bus) =>
    match Archive.Writer.create r.plan.archivePath r.files with
    | (.error e, files) => { r with bus := bus.release id, files }.fail (.archive e)
    | (.ok writer, files) =>
      let total := entries.foldr (·.recordCount + ·) 0
      let reader := Device.Reader.ofNames (entries.map (·.name))
      ({ r with bus, files }.post (.status s!"Backing up {r.plan.source.label}" 0 total)).goTo
        (.working (.backUp { connection := id, reader, writer, total }))

/-- The status of a backup that is at a database. -/
def backingUpText (source : DeviceInfo) (database : String) : String :=
  s!"Backing up {source.label}: {database}"

/-- The error of a failed move into the archive. -/
def backupError : TransferError Device.Error Archive.Error → Error
  | .read e => .device e
  | .write _ _ e => .archive e

/-- Moves one record into the archive. -/
def backUp (r : Run) (b : Backup)
    (sessions : Device.Bus.Sessions := Device.Bus.session) : Run :=
  if b.reader.ended then r.goTo (.closing b (.ok ()))
  else
    match transfer (Device.Reader.producer (sessions b.connection)) Archive.Writer.consumer
        (b.reader, r.bus) b.writer with
    | (.error e, (reader, bus), writer) =>
      { r with bus }.goTo (.closing { b with reader, writer } (.error (backupError e)))
    | (.ok false, (reader, bus), writer) =>
      { r with bus }.goTo (.checking (.backUp { b with reader, writer }))
    | (.ok true, (reader, bus), writer) =>
      let b := { b with reader, writer, processed := b.processed + 1 }
      let text := backingUpText r.plan.source (reader.current?.getD "")
      ({ r with bus }.postBlock text b.processed b.total).goTo (.checking (.backUp b))

/-- Ends a backup. -/
def closeBackup (r : Run) (b : Backup) (result : Except Error Unit) : Run :=
  let report := { r.report with backedUp := b.processed }
  let r := { r with bus := r.bus.release b.connection, report }
  match result with
  | .error e =>
    let files := match r.files.remove r.plan.archivePath with
      | .ok files => files
      | .error _ => r.files
    { r with files }.fail e
  | .ok () =>
    let (_, files) := b.writer.finish r.files
    let r := { r with files, report := { report with archivePath := some r.plan.archivePath } }
    (r.post (.status s!"Backed up {r.plan.source.label}" b.processed b.total)).goTo
      (.checking .enterResolve)

/-! ## Settling on a destination -/

/-- Takes the destination of the plan unless it is the source. -/
def resolve (r : Run) : Run :=
  match r.plan.destination with
  | none => r.goTo (.checking .ask)
  | some destination =>
    if destination.pin = r.plan.source.pin then
      (r.post (.error
        s!"Cannot restore {r.plan.source.label} into itself, choose another device")).goTo
          (.checking .ask)
    else r.goTo (.checking (.enterRestore destination))

/-- Asks for a destination. -/
def ask (r : Run) : Run :=
  (r.post (.destinationRequest r.plan.source)).goTo
    (.awaitingDestination { answering := r.listening })

/-- Goes on with the answer; the source is no answer. -/
def takeDestination (r : Run) (answer : Option DeviceInfo) : Run :=
  match answer with
  | none => r.abandon
  | some destination =>
    if destination.pin = r.plan.source.pin then
      (r.post (.error
        s!"{destination.label} is the device being migrated from, choose another")).goTo
          (.checking .ask)
    else r.goTo (.checking (.enterRestore destination))

/-! ## Restoring -/

/-- The status of a restore that is at a database. -/
def restoringText (destination : DeviceInfo) (database : String) : String :=
  s!"Restoring {destination.label}: {database}"

/-- Counts and opens the archive, restricted to the databases a device has. -/
def openArchive (r : Run) (present : List String) : Except Archive.Error (Nat × Archive.Cursor) :=
  match Archive.countRecords r.files r.plan.archivePath (some present) with
  | .error e => .error e
  | .ok total =>
    match Archive.open? r.files r.plan.archivePath (some present) with
    | .error e => .error e
    | .ok cursor => .ok (total, cursor)

/-- Starts a restore into the device just taken. -/
def openRestore (r : Run) (destination : DeviceInfo) (id : Device.ConnectionId)
    (sessions : Device.Bus.Sessions := Device.Bus.session) : Run :=
  match (sessions id).catalog r.bus with
  | (.error e, bus) => { r with bus := bus.release id }.fail (.device e)
  | (.ok entries, bus) =>
    match r.openArchive (entries.map (·.name)) with
    | .error e => { r with bus := bus.release id }.fail (.archive e)
    | .ok (total, cursor) =>
      match cursor.peek with
      | (.error e, _) => { r with bus := bus.release id }.fail (.archive e)
      | (.ok database, cursor) =>
        let r := { r with bus }
        let r := match database with
          | some database => r.post (.status (restoringText destination database) 0 total)
          | none => r
        let writer : Device.Writer := { mode := r.plan.writeMode }
        r.goTo (.working (.restore { destination, connection := id, cursor, writer, total }))

/-- The run about to end, the destination given back. -/
def closeRestore (r : Run) (x : Restore) (result : Except Error Unit) : Run :=
  { r with bus := r.bus.release x.connection }.goTo (.ending result)

/-- Goes on to the next record, with what was written so far in the report. -/
def continueRestore (r : Run) (x : Restore) : Run :=
  { r with report := { r.report with restored := x.writer.written } }.goTo
    (.checking (.restore x))

/-- Moves one record to the destination.  A refused record takes the rest of its database with it.
-/
def restore (r : Run) (x : Restore)
    (sessions : Device.Bus.Sessions := Device.Bus.session) : Run :=
  if x.cursor.atEnd then
    let r := r.post (.status s!"Restored {x.destination.label}" x.processed x.total)
    r.closeRestore x (.ok ())
  else
    match transfer Archive.Cursor.producer (Device.Writer.consumer (sessions x.connection))
        x.cursor (x.writer, r.bus) with
    | (.ok moved, cursor, (writer, bus)) =>
      let processed := if moved then x.processed + 1 else x.processed
      let x := { x with cursor, writer, processed }
      let text := restoringText x.destination (cursor.current.getD "")
      let r := { r with bus }
      (if moved then r.postBlock text processed x.total else r).continueRestore x
    | (.error (.read e), _, (_, bus)) => { r with bus }.closeRestore x (.error (.archive e))
    | (.error (.write database _ e), cursor, (writer, bus)) =>
      let r := { r with bus }
      if e.isFatal then r.closeRestore x (.error (.device e))
      else
        let text := s!"Could not restore {database}: {e.message}. Skipping its remaining records."
        let report := { r.report with skipped := r.report.skipped ++ [database] }
        let r := { r.post (.error text) with report }
        r.continueRestore { x with cursor := cursor.skip, writer }

/-! ## Steps -/

/-- What cancelling does to a task not yet begun. -/
def drop (r : Run) : Task → Run
  | .backUp b => r.goTo (.closing b (.error .cancelled))
  | .restore x => r.closeRestore x (.error .cancelled)
  | _ => r.fail .cancelled

/-- Does a task. -/
def perform (r : Run) (task : Task)
    (sessions : Device.Bus.Sessions := Device.Bus.session) : Run :=
  match task with
  | .enterBackup => (r.enter .backup).goTo (.checking (.connect .source none))
  | .enterResolve => (r.enter .resolveDestination).resolve
  | .enterRestore destination =>
    (r.enter .restore).goTo (.checking (.connect (.destination destination) none))
  | .connect side password => r.connect side password
  | .ask => r.ask
  | .backUp b => r.backUp b sessions
  | .restore x => r.restore x sessions

/-- The outcome and the last phase of a run that ended so. -/
def conclusion : Except Error Unit → Outcome × Phase
  | .ok () => (.completed, .done)
  | .error .cancelled => (.cancelled, .aborted)
  | .error e => (.failed e.message, .aborted)

/-- Reports the end of the run. -/
def conclude (r : Run) (result : Except Error Unit) : Run :=
  let (outcome, phase) := conclusion result
  let r := match outcome with
    | .failed reason => r.post (.error s!"Migration failed: {reason}")
    | _ => r
  let report := { r.report with outcome }
  (({ r with report }.enter phase).post (.status s!"Migration {report.summary}" 0 0)).goTo .finished

/-- What the worker does next; a worker that waits stays as it is. -/
def step (r : Run) (sessions : Device.Bus.Sessions := Device.Bus.session) : Run :=
  match r.stage with
  | .checking task => if r.cancelled then r.drop task else r.goTo (.working task)
  | .working task => r.perform task sessions
  | .awaitingPassword side gate =>
    match gate.waitOrCancel r.cancelled with
    | none => r
    | some answer => r.takePassword side answer
  | .awaitingDestination gate =>
    match gate.waitOrCancel r.cancelled with
    | none => r
    | some answer => r.takeDestination answer
  | .taking side id =>
    match r.bus.acquire? id with
    | none => r
    | some bus =>
      match side with
      | .source => { r with bus }.openBackup id sessions
      | .destination info => { r with bus }.openRestore info id sessions
  | .closing b result => r.closeBackup b result
  | .ending result => r.conclude result
  | .finished => r

/-- Whether the worker is through. -/
def isOver (r : Run) : Bool :=
  match r.stage with
  | .finished => true
  | _ => false

/-- Whether the worker waits and nothing it waits for has come. -/
def isWaiting (r : Run) : Bool :=
  match r.stage with
  | .awaitingPassword _ gate => (gate.waitOrCancel r.cancelled).isNone
  | .awaitingDestination gate => (gate.waitOrCancel r.cancelled).isNone
  | .taking _ id => !r.bus.isFree id
  | _ => false

/-- The given number of steps. -/
def steps : Nat → Run → Run
  | 0, r => r
  | n + 1, r => steps n r.step

/-! ## From outside -/

/-- Asks the worker to stop. -/
def cancel (r : Run) : Run := { r with cancelled := true }

/-- Answers a password request; without one, nothing happens. -/
def answerPassword (r : Run) (password : String) : Run :=
  match r.stage with
  | .awaitingPassword side gate => r.goTo (.awaitingPassword side (gate.answer password))
  | _ => r

/-- Answers a destination request; without one, nothing happens. -/
def answerDestination (r : Run) (destination : DeviceInfo) : Run :=
  match r.stage with
  | .awaitingDestination gate => r.goTo (.awaitingDestination (gate.answer destination))
  | _ => r

/-- Lets the open request go without an answer. -/
def decline (r : Run) : Run :=
  match r.stage with
  | .awaitingPassword side gate => r.goTo (.awaitingPassword side gate.drop)
  | .awaitingDestination gate => r.goTo (.awaitingDestination gate.drop)
  | _ => r

/-- Nobody receives the events any more; requests are dropped as they are posted. -/
def stopListening (r : Run) : Run := { r with listening := false }

end Run

end Palmtop.Migration
