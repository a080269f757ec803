import Palmtop.Handoff

/-! # Named handoffs

Handoffs and cancellation tokens under names, and waits that have been started under the name of
their handoff and are still to be joined.  A name can be given anew: the handoff it stood for loses
its answering half, and whoever waits for that one gets nothing.  Several names may stand for one
token, and cancelling it under one of them cancels it under all.
-/
namespace Palmtop

/-- The handoffs and tokens there are. -/
structure Handoffs (α : Type) where
  /-- Every handoff, by number. -/
  handoffs : List (Handoff α) := []
  /-- The handoff each name stands for, and whether its waiting half can still be taken. -/
  names : List (String × Nat × Bool) := []
  /-- The token each name stands for. -/
  tokens : List (String × Nat) := []
  /-- The number of tokens made. -/
  tokenCount : Nat := 0
  cancelled : List Nat := []
  /-- The waits started and not joined, with the token that ends them. -/
  waits : List (String × Nat × Option Nat) := []

namespace Handoffs

variable {α : Type}

/-- What can be asked of named handoffs. -/
inductive Request (α : Type) where
  | make (name : String)
  | makeToken (name : String)
  /-- One more name for a token. -/
  | share (name token : String)
  | cancel (token : String)
  | isCancelled (token : String)
  | answer (name : String) (value : α)
  /-- The answering half goes away without an answer. -/
  | drop (name : String)
  /-- The waiting half goes away. -/
  | leave (name : String)
  /-- Waits, if a token is named only until it is cancelled. -/
  | wait (name : String) (token : Option String)
  /-- Starts a wait. -/
  | start (name : String) (token : Option String)
  /-- Gets what a wait once started comes to. -/
  | join (name : String)

/-- What comes of a request. -/
inductive Outcome (α : Type) where
  | done
  | truth (b : Bool)
  | value (v : Option α)
  /-- The wait would go on for ever. -/
  | stuck
  /-- There is nothing to wait for under that name. -/
  | missing

/-- Whether a wait with this token ends without an answer. -/
def isEnded (x : Handoffs α) (token : Option Nat) : Bool := token.any x.cancelled.contains

/-- Changes one handoff. -/
def change (n : Nat) (f : Handoff α → Handoff α) (x : Handoffs α) : Handoffs α :=
  { x with handoffs := x.handoffs.modify n f }

/-- The handoff a name stands for, and whether its waiting half can be taken. -/
def find (x : Handoffs α) (name : String) : Nat × Bool :=
  (x.names.lookup name).getD (x.handoffs.length, false)

/-- Takes the waiting half of a handoff away from its name. -/
def take (name : String) (x : Handoffs α) : Handoffs α :=
  { x with names := (name, (x.find name).1, false) :: x.names }

/-- What a wait comes to. -/
def outcome (x : Handoffs α) (n : Nat) (token : Option Nat) : Outcome α :=
  let h := x.handoffs[n]?.getD {}
  match if token.isSome then h.waitOrCancel (x.isEnded token) else h.wait with
  | some v => .value v
  | none => .stuck

/-- Serves a request. -/
def serve (r : Request α) (x : Handoffs α) : Outcome α × Handoffs α :=
  let token? (name : Option String) := name.bind fun s => x.tokens.lookup s
  let answering (n : Nat) := x.handoffs[n]?.any (·.answering)
  match r with
  | .make name =>
    let x := x.change (x.find name).1 (·.drop)
    (.done, { x with
      handoffs := x.handoffs ++ [{}]
      names := (name, x.handoffs.length, true) :: x.names })
  | .makeToken name =>
    (.done, { x with tokens := (name, x.tokenCount) :: x.tokens, tokenCount := x.tokenCount + 1 })
  | .share name token =>
    (.done, { x with
      tokens := (x.tokens.lookup token).toList.map (fun n => (name, n)) ++ x.tokens })
  | .cancel token =>
    (.done, { x with cancelled := (x.tokens.lookup token).toList ++ x.cancelled })
  | .isCancelled token => (.truth (x.isEnded (x.tokens.lookup token)), x)
  | .answer name v =>
    let n := (x.find name).1
    (.truth (answering n), x.change n (·.answer v))
  | .drop name =>
    let n := (x.find name).1
    (.truth (answering n), x.change n (·.drop))
  | .leave name =>
    let (n, here) := x.find name
    (.truth here, if here then (x.change n (·.leave)).take name else x)
  | .wait name token =>
    let (n, here) := x.find name
    if here then (x.outcome n (token? token), (x.change n (·.leave)).take name) else (.missing, x)
  | .start name token =>
    let (n, here) := x.find name
    if here then (.done, { x with waits := (name, n, token? token) :: x.waits }.take name)
    else (.missing, x)
  | .join name =>
    match x.waits.lookup name with
    | some (n, token) =>
      let waits := x.waits.filter fun w => w.1 != name
      (x.outcome n token, { x.change n (·.leave) with waits })
    | none => (.missing, x)

end Handoffs

end Palmtop
