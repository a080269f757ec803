import Palmtop.Transfer

/-! # Scripted transfers

A producer that hands out a list of records and errors, and a consumer that collects what it takes
and refuses some ids: the two ends to try a transfer with.
-/
namespace Palmtop.Transfer

variable {ε δ : Type}

/-- What a scripted producer is still going to answer. -/
structure Script (ε : Type) where
  answers : List (Except ε Record)
  ended : Bool := false

/-- Hands out the answers in order; once they are used up, the next call finds the end. -/
def Script.producer : Producer (Script ε) ε where
  next s := match s.answers with
    | [] => (.ok none, { s with ended := true })
    | .ok record :: answers => (.ok (some record), { s with answers })
    | .error e :: answers => (.error e, { s with answers })
  ended := Script.ended

/-- Collects records, and refuses those of the ids listed with the error beside the id. -/
def collector (refused : List (UniqueId × δ)) : Consumer (List Record) δ where
  put record taken := match refused.find? fun p => p.1 == record.uniqueId with
    | some (_, e) => (.error e, taken)
    | none => (.ok (), taken ++ [record])

end Palmtop.Transfer
