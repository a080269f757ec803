import Palmtop.Migration.Dialogue
import Palmtop.Migration.Incident
import Palmtop.Migration.Script

/-! # Rehearsals

A migration played through with the user's side and the incidents written down beforehand.  The
worker works until it waits or is through; then the events are dealt with one by one, either by a
scripted user (`attended`) or by hand, a response for each request (`byHand`).  Every loop is given
a number of rounds and stops earlier when nothing is left to do.

The user holds on to the migration until stopping it; a user who stops it either waits for the
report or walks away.
-/
namespace Palmtop.Migration

/-- What the user has of a migration. -/
inductive Hold where
  | held
  /-- The user stopped it and has the report. -/
  | stopped
  /-- The user walked away. -/
  | gone
  deriving DecidableEq

/-- What is done by hand about a request. -/
inductive Response where
  | password (text : String)
  | destination (info : DeviceInfo)
  /-- The request is let go. -/
  | letGo
  /-- The migration is stopped while the request is open. -/
  | stop
  /-- The user walks away while the request is open, which stops the migration too. -/
  | walkAway

/-- A dialogue with a scripted user, and incidents for a moment. -/
structure Rehearsal where
  dialogue : Dialogue Script
  planned : Option (Moment × List Incident) := none
  hold : Hold := .held

namespace Rehearsal

/-- The run. -/
def run (x : Rehearsal) : Run := x.dialogue.run

/-- The rehearsal with the run changed. -/
def changeRun (x : Rehearsal) (change : Run → Run) : Rehearsal :=
  { x with dialogue := { x.dialogue with run := change x.dialogue.run } }

/-- The rehearsal after an incident. -/
def strike (x : Rehearsal) (incident : Incident) : Rehearsal :=
  let x := x.changeRun (·.suffer incident)
  match incident with
  | .cancel => { x with hold := .stopped }
  | _ => x

/-- One step of the worker, and the incidents if their moment has come. -/
def step (x : Rehearsal) : Rehearsal :=
  let after := x.changeRun (·.step)
  match x.planned with
  | some (moment, incidents) =>
    if moment.between x.run.bus after.run.bus then incidents.foldl strike after else after
  | none => after

/-- Lets the worker work until it waits or is through. -/
def work : (rounds : Nat) → Rehearsal → Rehearsal
  | 0, x => x
  | rounds + 1, x => if x.run.isOver || x.run.isWaiting then x else work rounds x.step

/-- Plays the migration through with the scripted user. -/
def attended : (rounds : Nat) → Rehearsal → Rehearsal
  | 0, x => x
  | rounds + 1, x =>
    let x := x.work rounds
    if x.dialogue.queue.isEmpty then x
    else
      let patience := x.dialogue.user.patience
      attended rounds
        { x with dialogue := x.dialogue.moves Script.prompter patience [.take, .settle] }

/-- The rehearsal after a response to a request; one of the other kind lets the request go. -/
def respond (x : Rehearsal) (request : Event) (response : Response) : Rehearsal :=
  match response, request with
  | .stop, _ => x.strike .cancel
  | .walkAway, _ => { x.changeRun Run.cancel with hold := .gone }
  | .password text, .passwordRequest _ _ => x.changeRun (·.answerPassword text)
  | .destination info, .destinationRequest _ => x.changeRun (·.answerDestination info)
  | _, _ => x.changeRun Run.decline

/-- An event, and the phase of the run at that time if the user can see it. -/
abbrev Sighting := Event × Option Phase

/-- Plays the migration through by hand.  Each request takes the next response, and the incidents
before it; requests without a response are let go. -/
def byHand : (rounds : Nat) → List (List Incident × Response) → Rehearsal →
    List Sighting × Rehearsal
  | 0, _, x => ([], x)
  | rounds + 1, responses, x =>
    let x := x.work rounds
    match x.dialogue.queue with
    | [] => ([], x)
    | event :: _ =>
      let sighting := (event, if x.hold = .held then some x.run.phase else none)
      let x := { x with dialogue := { x.dialogue with taken := x.dialogue.taken + 1 } }
      if event.isRequest then
        let (incidents, response) := responses.headD ([], .letGo)
        let (rest, x) :=
          byHand rounds responses.tail ((incidents.foldl strike x).respond event response)
        (sighting :: rest, x)
      else
        let (rest, x) := byHand rounds responses x
        (sighting :: rest, x)

end Rehearsal

end Palmtop.Migration
