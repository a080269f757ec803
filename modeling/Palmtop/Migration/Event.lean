import Palmtop.Device.Info

/-! # Events

What a migration tells its user and asks of them.  A question comes with the answering half of a
handoff; that the question stays unanswered is an answer too, and ends the migration.
-/
namespace Palmtop.Migration

/-- A message from a migration to its user. -/
inductive Event where
  /-- How far the phase is. -/
  | status (text : String) (processed total : Nat)
  /-- Something went wrong; the migration goes on unless it ends as well. -/
  | error (text : String)
  /-- The device is locked and wants its password. -/
  | passwordRequest (device : DeviceInfo) (tries : Nat)
  /-- Which device shall be restored into?  It must not be the source. -/
  | destinationRequest (source : DeviceInfo)
  deriving DecidableEq

namespace Event

/-- Whether the event asks something. -/
def isRequest : Event → Bool
  | .status _ _ _ | .error _ => false
  | .passwordRequest _ _ | .destinationRequest _ => true

/-- The form for diagnosis, without the answering half. -/
def shown : Event → Text.Shown
  | .status text processed total =>
    .block "Status"
      [("text", .text text), ("processed", .number processed), ("total", .number total)] false
  | .error text => .block "ErrorMessage" [("text", .text text)] false
  | .passwordRequest device tries =>
    .block "PasswordRequest" [("device", device.shown), ("remaining_tries", .number tries)] true
  | .destinationRequest source => .block "DestinationPinRequest" [("source", source.shown)] true

end Event

end Palmtop.Migration
