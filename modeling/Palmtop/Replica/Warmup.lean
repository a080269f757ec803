import Palmtop.Replica.Registry

/-! # Warming a registry up

A warm-up loads a list of databases in the background.  Before each name it asks whether it was
cancelled, and stops there if so; a name the device does not have is passed over, and any other
error ends the warm-up.  Whatever was loaded stays loaded.
-/
namespace Palmtop.Replica

variable {σ : Type} (session : Device.Session σ)

/-- Loads these databases; answers those the device has.  `cancelled` is asked before each name,
with the number of names before it. -/
def warmUpFrom (cancelled : Nat → σ → Bool) :
    List String → Nat → Registry → σ → Except Error (List String) × Registry × σ
  | [], _, r, s => (.ok [], r, s)
  | name :: rest, before, r, s =>
    if cancelled before s then (.ok [], r, s)
    else match r.load session name s with
      | (.error (.unknownDatabase _), r, s) => warmUpFrom cancelled rest (before + 1) r s
      | (.error e, r, s) => (.error e, r, s)
      | (.ok _, r, s) =>
        let (names, r, s) := warmUpFrom cancelled rest (before + 1) r s
        (names.map (name :: ·), r, s)

/-- Loads these databases; answers those the device has, up to where it was cancelled. -/
def warmUp (cancelled : Nat → σ → Bool) (names : List String) (r : Registry) (s : σ) :
    Except Error (List String) × Registry × σ :=
  warmUpFrom session cancelled names 0 r s

end Palmtop.Replica
