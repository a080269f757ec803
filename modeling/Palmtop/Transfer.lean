import Palmtop.Record
import Palmtop.Text.Fields

/-! # Moving records

A producer hands out records one at a time, a consumer takes them one at a time; both are state
machines that may fail at any call.  `transfer` moves exactly one record, `transferAll` repeats it
until the producer reports its end.  The transfer has no state of its own and no policy: an error on
either side is returned as it is, and a later call goes on with the next record.

A producer need not end, so `transferAll` is given a limit on the number of calls to the producer
and says when it was stopped by it.
-/
namespace Palmtop

/-- A stream of records over states `σ`, failing with `ε`. -/
structure Producer (σ ε : Type) where
  /-- The next record, or nothing once the stream is exhausted. -/
  next : σ → Except ε (Option Record) × σ
  /-- Whether the stream has been seen to end. -/
  ended : σ → Bool

/-- A place to put records over states `τ`, failing with `δ`. -/
structure Consumer (τ δ : Type) where
  put : Record → τ → Except δ Unit × τ

/-- Which side of a transfer failed. -/
inductive TransferError (ε δ : Type) where
  /-- No record could be had; the consumer was not called. -/
  | read (error : ε)
  /-- The consumer refused this record. -/
  | write (database : String) (uniqueId : UniqueId) (error : δ)

namespace TransferError

/-- The line for the user, given the lines for the errors of both sides. -/
def message {ε δ : Type} (ofRead : ε → String) (ofWrite : δ → String) :
    TransferError ε δ → String
  | .read e => s!"failed reading record: {ofRead e}"
  | .write database uniqueId e =>
    s!"failed writing record {database}/{uniqueId.show}: {ofWrite e}"

/-- The name of the side, for programs that tell errors apart. -/
def kind {ε δ : Type} : TransferError ε δ → String
  | .read _ => "Read"
  | .write _ _ _ => "Write"

/-- The form for diagnosis. -/
def shown {ε δ : Type} (ofRead : ε → Text.Shown) (ofWrite : δ → Text.Shown) :
    TransferError ε δ → Text.Shown
  | .read e => .tuple "Read" [ofRead e]
  | .write database uniqueId e =>
    .block "Write" [("database", .text database), ("unique_id", .number uniqueId.toNat),
      ("error", ofWrite e)] false

end TransferError

variable {σ τ ε δ : Type}

/-- Moves one record: `true` once the consumer has taken it, `false` without a call to the consumer
when there is none. -/
def transfer (source : Producer σ ε) (sink : Consumer τ δ) (s : σ) (t : τ) :
    Except (TransferError ε δ) Bool × σ × τ :=
  match source.next s with
  | (.error e, s) => (.error (.read e), s, t)
  | (.ok none, s) => (.ok false, s, t)
  | (.ok (some record), s) =>
    match sink.put record t with
    | (.error e, t) => (.error (.write record.database record.uniqueId e), s, t)
    | (.ok (), t) => (.ok true, s, t)

/-- How a run of transfers came to its end. -/
inductive TransferEnd (ε δ : Type) where
  /-- The producer ended; this many records were delivered. -/
  | delivered (count : Nat)
  | failed (error : TransferError ε δ)
  /-- The limit was reached first. -/
  | unfinished

/-- Transfers until the producer reports its end, `delivered` records having been moved before; at
most `limit` transfers. -/
def transferAllFrom (source : Producer σ ε) (sink : Consumer τ δ) :
    Nat → Nat → σ → τ → TransferEnd ε δ × σ × τ
  | limit, delivered, s, t =>
    if source.ended s then (.delivered delivered, s, t)
    else match limit with
      | 0 => (.unfinished, s, t)
      | limit + 1 =>
        match transfer source sink s t with
        | (.error e, s, t) => (.failed e, s, t)
        | (.ok moved, s, t) =>
          transferAllFrom source sink limit (if moved then delivered + 1 else delivered) s t

/-- Transfers until the producer reports its end, counting the records delivered. -/
def transferAll (source : Producer σ ε) (sink : Consumer τ δ) (limit : Nat) (s : σ) (t : τ) :
    TransferEnd ε δ × σ × τ :=
  transferAllFrom source sink limit 0 s t

end Palmtop
