/-! # One-shot handoff

A worker that needs an answer keeps one half of a handoff and sends the other half along with its
question.  The answering half is used up when it answers and also when it is dropped, whether or
not its holder gave an answer, so the worker can never be stranded.  The slot between the halves
holds at most one value, and answering never waits.

`wait` and `waitOrCancel` say what the waiting half gets *now*: `none` means that it goes on
waiting, `some none` that no answer will come (or that waiting was given up), `some (some v)` that
`v` was handed over.  A cancelled wait looks into the slot once more, so an answer given in time is
not lost.
-/
namespace Palmtop

/-- The slot between the two halves and which of them still exist. -/
structure Handoff (α : Type) where
  slot : Option α := none
  answering : Bool := true
  waiting : Bool := true
  deriving DecidableEq

namespace Handoff

variable {α : Type}

/-- The answering half hands over `value` and is used up; without that half nothing happens. -/
def answer (h : Handoff α) (value : α) : Handoff α :=
  if h.answering then
    { h with slot := if h.waiting then some value else none, answering := false }
  else h

/-- The answering half goes away without an answer. -/
def drop (h : Handoff α) : Handoff α := { h with answering := false }

/-- The waiting half goes away; what was handed over goes with it. -/
def leave (h : Handoff α) : Handoff α := { h with slot := none, waiting := false }

/-- What a wait gets now. -/
def wait (h : Handoff α) : Option (Option α) :=
  match h.slot with
  | some value => some (some value)
  | none => if h.answering then none else some none

/-- What a wait gets now if it gives up once `cancelled`. -/
def waitOrCancel (h : Handoff α) (cancelled : Bool) : Option (Option α) :=
  if cancelled then some h.slot else h.wait

end Handoff

end Palmtop
