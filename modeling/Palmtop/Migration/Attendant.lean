import Palmtop.Device.Bus
import Palmtop.Migration.Event

/-! # Attending to a migration

An attendant takes the events of a migration one at a time and puts them to a user, who is asked
for passwords and destinations and may decline.  Every request gets its answer, or is let go,
before the attendant takes the next event, so the worker is never left waiting for a request that
was dealt with.

The candidates for a destination come from a fresh probe of the bus and never include the source; if
the user names the source all the same, the bus is probed and the user asked again.
-/
namespace Palmtop.Migration

/-- A user whose mind is in states `π`.  Choosing a destination the user may plug devices in and
out. -/
structure Prompter (π : Type) where
  password : DeviceInfo → Nat → π → Option String × π
  choose : DeviceInfo → List DeviceInfo → π → Device.Bus → Option DeviceInfo × π × Device.Bus
  status : String → Nat → Nat → π → π
  error : String → π → π

/-- What became of a request. -/
inductive Reply where
  | password (text : String)
  | destination (info : DeviceInfo)
  /-- It was let go without an answer. -/
  | declined
  /-- The user has not come to an end. -/
  | undecided
  deriving DecidableEq

namespace Prompter

variable {π : Type} (p : Prompter π)

/-- Asks for a destination, at most `limit` times, until the user names a device that is not the
source or declines, or the bus cannot be probed. -/
def chooseDestination (source : DeviceInfo) :
    (limit : Nat) → π → Device.Bus → Reply × π × Device.Bus
  | 0, s, bus => (.undecided, s, bus)
  | limit + 1, s, bus =>
    match bus.probe with
    | (.error e, bus) => (.declined, p.error s!"Could not scan for devices: {e.message}" s, bus)
    | (.ok devices, bus) =>
      match p.choose source (devices.filter (·.pin != source.pin)) s bus with
      | (none, s, bus) => (.declined, s, bus)
      | (some choice, s, bus) =>
        if choice.pin = source.pin then
          let s := p.error "The destination must be a different device than the source." s
          chooseDestination source limit s bus
        else (.destination choice, s, bus)

/-- Puts an event to the user; a request gets a reply, no password counting as the empty one. -/
def handle (limit : Nat) (event : Event) (s : π) (bus : Device.Bus) :
    Option Reply × π × Device.Bus :=
  match event with
  | .status text processed total => (none, p.status text processed total s, bus)
  | .error text => (none, p.error text s, bus)
  | .passwordRequest device tries =>
    let (password, s) := p.password device tries s
    (some (.password (password.getD "")), s, bus)
  | .destinationRequest source =>
    let (reply, s, bus) := p.chooseDestination source limit s bus
    (some reply, s, bus)

end Prompter

end Palmtop.Migration
