import Palmtop.Replica.Registry

/-! # Callers that share a registry

Any number of callers may use one registry at the same time.  What one caller does in one piece, no
other seeing a state in between, is a *section*: a look at the replicas, taking the loading lock, a
load from the device, keeping the replica, giving the lock back.  The device is read only by the
caller that has the loading lock, and that caller looks once more before it reads; lookups never
wait for the lock.

A warm-up is a caller that loads one database after another.  It goes on after an answer and after a
database the device does not have, and stops at any other error; cancelling it takes the databases
it has not come to yet.

A run is any interleaving of sections, arrivals, cancellations and of what others do to the device.
A caller whose lock is taken stays where it is.  The state keeps a log of the loads from the device,
the replicas kept and the answers given.
-/
namespace Palmtop.Replica

/-- How a caller is referred to. -/
abbrev CallerId := Nat

/-- A call on a registry. -/
inductive Call where
  /-- The replica of a database, read from the device unless it was before. -/
  | load (name : String)
  /-- The replica of a database, if it was loaded. -/
  | get (name : String)
  /-- The names of the databases loaded. -/
  | loaded
  deriving DecidableEq

/-- What a call answers. -/
abbrev Call.Answer : Call → Type
  | .load _ => Except Error ReplicaId
  | .get _ => Option ReplicaId
  | .loaded => List String

/-- Where a caller stands. -/
inductive Stage where
  /-- Between two calls. -/
  | idle
  /-- About to look at the replicas. -/
  | asking (call : Call)
  /-- Did not find the database and wants the loading lock. -/
  | queued (name : String)
  /-- Has the loading lock and is about to look again. -/
  | locked (name : String)
  /-- Has the loading lock, and the database is still missing. -/
  | reading (name : String)
  /-- Has the loading lock and the replica. -/
  | keeping (name : String) (replica : Replica)
  /-- Has its answer and still the loading lock. -/
  | leaving (name : String) (answer : Except Error ReplicaId)
  /-- Has its answer. -/
  | served (call : Call) (answer : call.Answer)

/-- A caller and the databases it loads after this one. -/
structure Caller where
  stage : Stage
  rest : List String := []

namespace Caller

/-- The caller on to its next call, if it has one. -/
def next (c : Caller) : Caller :=
  match c.rest with
  | [] => c
  | name :: rest => { stage := .asking (.load name), rest }

/-- Whether an answer lets a warm-up go on. -/
def goesOnAfter : Except Error ReplicaId → Bool
  | .ok _ | .error (.unknownDatabase _) => true
  | .error _ => false

end Caller

/-- Something that happened to a registry. -/
inductive Happening where
  /-- A load from the device began. -/
  | started (name : String)
  /-- A load from the device ended. -/
  | read (name : String) (succeeded : Bool)
  /-- The replica of a database was kept under this number. -/
  | kept (name : String) (id : ReplicaId)
  | answered (call : Call) (answer : call.Answer)

/-- A registry, the state behind its device and the callers that share it. -/
structure Sharing (σ : Type) where
  registry : Registry
  device : σ
  callers : List Caller
  /-- Who has the loading lock. -/
  lock : Option CallerId := none
  /-- What happened so far, the latest first. -/
  log : List Happening := []

namespace Sharing

variable {σ : Type} (session : Device.Session σ)

/-- These callers at the start, each with the database it asks for. -/
def start (registry : Registry) (device : σ) (names : List String) : Sharing σ :=
  { registry, device, callers := names.map fun name => { stage := .asking (.load name) } }

/-! ## Sections -/

/-- The state with one more caller. -/
def arrive (w : Sharing σ) (caller : Caller) : Sharing σ :=
  { w with callers := w.callers ++ [caller] }

/-- The state with a caller changed. -/
def change (w : Sharing σ) (i : CallerId) (f : Caller → Caller) : Sharing σ :=
  { w with callers := w.callers.modify i f }

/-- The state with a caller somewhere else. -/
def goTo (w : Sharing σ) (i : CallerId) (stage : Stage) : Sharing σ :=
  w.change i fun c => { c with stage }

/-- The state with one more line in the log. -/
def note (w : Sharing σ) (happening : Happening) : Sharing σ :=
  { w with log := happening :: w.log }

/-- Gives a caller its answer. -/
def serve (w : Sharing σ) (i : CallerId) (call : Call) (answer : call.Answer) : Sharing σ :=
  (w.goTo i (.served call answer)).note (.answered call answer)

/-- The first look, which answers everything but the load of a database that is listed and not
loaded. -/
def look (w : Sharing σ) (i : CallerId) : Call → Sharing σ
  | .load name =>
    match w.registry.get? name with
    | some id => w.serve i (.load name) (.ok id)
    | none =>
      if w.registry.lists name then w.goTo i (.queued name)
      else w.serve i (.load name) (.error (.unknownDatabase name))
  | .get name => w.serve i (.get name) (w.registry.get? name)
  | .loaded => w.serve i .loaded w.registry.loaded

/-- The look after the lock was taken; somebody else may have loaded the database meanwhile. -/
def lookAgain (w : Sharing σ) (i : CallerId) (name : String) : Sharing σ :=
  match w.registry.get? name with
  | some id => w.goTo i (.leaving name (.ok id))
  | none => (w.goTo i (.reading name)).note (.started name)

/-- The load from the device. -/
def read (w : Sharing σ) (i : CallerId) (name : String) : Sharing σ :=
  match Replica.load session name w.device with
  | (.error e, device) =>
    ({ w with device }.goTo i (.leaving name (.error e))).note (.read name false)
  | (.ok replica, device) =>
    ({ w with device }.goTo i (.keeping name replica)).note (.read name true)

/-- Keeps a replica. -/
def keep (w : Sharing σ) (i : CallerId) (name : String) (replica : Replica) : Sharing σ :=
  let id := w.registry.replicas.length
  ({ w with registry := w.registry.insert replica }.goTo i (.leaving name (.ok id))).note
    (.kept name id)

/-- The next section of a caller that stands somewhere. -/
def stepFrom (w : Sharing σ) (i : CallerId) : Stage → Sharing σ
  | .idle => w.change i Caller.next
  | .asking call => w.look i call
  | .queued name =>
    if w.lock.isSome then w else { w.goTo i (.locked name) with lock := some i }
  | .locked name => w.lookAgain i name
  | .reading name => w.read session i name
  | .keeping name replica => w.keep i name replica
  | .leaving name answer => { w with lock := none }.serve i (.load name) answer
  | .served (.load _) answer =>
    if Caller.goesOnAfter answer then w.change i Caller.next else w
  | .served _ _ => w

/-- The next section of caller `i`. -/
def step (w : Sharing σ) (i : CallerId) : Sharing σ :=
  match w.callers[i]? with
  | some c => w.stepFrom session i c.stage
  | none => w

/-! ## Runs -/

/-- One turn of a run. -/
inductive Turn (σ : Type) where
  /-- Somebody makes a call. -/
  | call (call : Call)
  /-- A warm-up begins. -/
  | warmUp (names : List String)
  /-- A warm-up is cancelled; the load it is at is not. -/
  | cancel (i : CallerId)
  /-- The next section of a caller. -/
  | go (i : CallerId)
  /-- Somebody else used the device. -/
  | disturb (device : σ)

/-- The state after a turn. -/
def turn (w : Sharing σ) : Turn σ → Sharing σ
  | .call call => w.arrive { stage := .asking call }
  | .warmUp names => w.arrive { stage := .idle, rest := names }
  | .cancel i => w.change i fun c => { c with rest := [] }
  | .go i => w.step session i
  | .disturb device => { w with device }

/-- The state after these turns, in this order. -/
def run (w : Sharing σ) (turns : List (Turn σ)) : Sharing σ :=
  turns.foldl (turn session) w

/-- Every caller in turn, often enough for one call of each. -/
def serveAll (w : Sharing σ) : Sharing σ :=
  let ids := List.range w.callers.length
  run session w ((ids ++ ids.flatMap (List.replicate 5)).map .go)

/-- The answers the callers have to what they loaded last. -/
def answers (w : Sharing σ) : List (Except Error ReplicaId) :=
  w.callers.filterMap fun c => match c.stage with
    | .served (.load _) answer => some answer
    | _ => none

end Sharing

end Palmtop.Replica
