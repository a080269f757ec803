import Palmtop.Device.Session

/-! # Faults between a session and its device

A fault plan sits between a session and the state behind it.  It can swallow additions, answering
that they were done, and refuse one slot table, the n-th from now; a command that a fault takes
never reaches the device.
-/
namespace Palmtop.Device

/-- The faults laid for the commands to come. -/
structure Faults where
  /-- Additions are answered and not done. -/
  dropAdds : Bool := false
  /-- How many fetches of a slot table until the one that is refused, itself included. -/
  tableGlitchIn : Option Nat := none

/-- What a fault answers in place of the device, and the plan afterwards. -/
def Faults.take (f : Faults) : (c : Command) → Option (Except Error c.Answer) × Faults
  | .slotTable _ =>
    match f.tableGlitchIn with
    | none | some 0 => (none, f)
    | some 1 => (some (.error (.rejected "state table glitch")), { f with tableGlitchIn := none })
    | some (n + 2) => (none, { f with tableGlitchIn := some (n + 1) })
  | .addRecord _ _ => (if f.dropAdds then some (.ok ()) else none, f)
  | _ => (none, f)

/-- The session with a fault plan in front of it. -/
def Session.withFaults {σ : Type} (session : Session σ) : Session (Faults × σ) where
  run c s :=
    match s.1.take c with
    | (some answer, faults) => (answer, faults, s.2)
    | (none, faults) =>
      let (answer, after) := session.run c s.2
      (answer, faults, after)

end Palmtop.Device
