import Palmtop.Migration.Attendant
import Palmtop.Migration.Run

/-! # Worker and attendant together

The events a worker posts wait in a queue until the attendant takes them, one at a time and in
order. A request the attendant has taken is answered, or let go, when the attendant is done with
it; one that waits in the queue when the queue is thrown away is let go with it.  Worker and
attendant move in any order.
-/
namespace Palmtop.Migration

/-- A run, the event the attendant is at, and the user's mind. -/
structure Dialogue (π : Type) where
  run : Run
  user : π
  /-- How many events the attendant has taken. -/
  taken : Nat := 0
  /-- The event the attendant is at. -/
  handling : Option Event := none

/-- What can happen next. -/
inductive Move where
  /-- The worker makes a step. -/
  | work
  /-- The attendant takes the next event. -/
  | take
  /-- The attendant puts the event to the user and passes the reply on. -/
  | settle
  /-- The queue is thrown away. -/
  | leave
  /-- The user asks the worker to stop. -/
  | cancel
  deriving DecidableEq

/-- The run after a reply to its open request. -/
def Run.receive (r : Run) : Option Reply → Run
  | some (.password text) => r.answerPassword text
  | some (.destination info) => r.answerDestination info
  | some .declined => r.decline
  | some .undecided | none => r

namespace Dialogue

variable {π : Type} (p : Prompter π) (limit : Nat)

/-- The events nobody has taken yet, the oldest first. -/
def queue (d : Dialogue π) : List Event :=
  if d.run.listening then d.run.posted.reverse.drop d.taken else []

/-- Takes the next event, if the attendant is free. -/
def take (d : Dialogue π) : Dialogue π :=
  match d.handling, d.queue with
  | none, event :: _ => { d with handling := some event, taken := d.taken + 1 }
  | _, _ => d

/-- Puts the event at hand to the user.  An attendant whose user has not come to an end stays at
it. -/
def settle (d : Dialogue π) : Dialogue π :=
  match d.handling with
  | none => d
  | some event =>
    let (reply, user, bus) := p.handle limit event d.user d.run.bus
    let handling := if reply = some .undecided then some event else none
    { d with run := { d.run with bus }.receive reply, user, handling }

/-- Throws the queue away, and with it a request nobody has taken. -/
def leave (d : Dialogue π) : Dialogue π :=
  let run := if d.queue.any (·.isRequest) then d.run.decline else d.run
  { d with run := run.stopListening }

/-- One move. -/
def step (d : Dialogue π) : Move → Dialogue π
  | .work => { d with run := d.run.step }
  | .take => d.take
  | .settle => d.settle p limit
  | .leave => d.leave
  | .cancel => { d with run := d.run.cancel }

/-- These moves, in this order. -/
def moves (d : Dialogue π) (ms : List Move) : Dialogue π := ms.foldl (step p limit) d

end Dialogue

end Palmtop.Migration
