import Palmtop.Device.Memory

/-! # The bus

Devices are plugged into a bus under their PIN, at most one per PIN.  Connecting opens a session and
makes a *connection*, which one holder at a time may use; connecting again under a PIN that has a
connection gives out the same connection, without a password and without looking at what is plugged
in now.  Unplugging takes the device off the bus and forgets its connection; plugging in another
device under a PIN does not.  A connection goes on driving the device it was made for.

Devices and connections are numbered in order of appearance and never forgotten, so that a
connection outlives the plug.
-/
namespace Palmtop.Device

/-- A device in use: what it was called when it was connected, and whether somebody holds it. -/
structure Connection where
  info : DeviceInfo
  /-- The number of the device it drives. -/
  device : Nat
  held : Bool := false
  deriving DecidableEq

/-- How a connection is referred to. -/
abbrev ConnectionId := Nat

/-- Everything plugged in and connected so far. -/
structure Bus where
  /-- Every device ever plugged in, by number. -/
  devices : List Device := []
  /-- The devices on the bus and their numbers, in the order they were plugged in. -/
  plugged : List (DeviceInfo × Nat) := []
  /-- Every connection ever made, by number. -/
  connections : List Connection := []
  /-- The connection to give out for a PIN. -/
  live : List (Pin × ConnectionId) := []
  /-- How many probes are still going to fail. -/
  failingProbes : Nat := 0

namespace Bus

/-- Plugs a device in, in place of one with the same PIN; the new device gets the next number. -/
def plugIn (bus : Bus) (info : DeviceInfo) (device : Device) : Bus :=
  { bus with
    devices := bus.devices ++ [device]
    plugged := (bus.plugged.filter fun p => p.1.pin != info.pin) ++ [(info, bus.devices.length)] }

/-- Takes the device off the bus and forgets its connection. -/
def unplug (bus : Bus) (pin : Pin) : Bus :=
  { bus with
    plugged := bus.plugged.filter fun p => p.1.pin != pin
    live := bus.live.filter fun p => p.1 != pin }

/-- Lists the devices on the bus. -/
def probe (bus : Bus) : Except Error (List DeviceInfo) × Bus :=
  match bus.failingProbes with
  | 0 => (.ok (bus.plugged.map (·.1)), bus)
  | n + 1 => (.error (.unreachable "bus"), { bus with failingProbes := n })

/-- The bus with device `n` in another state. -/
def setDevice (bus : Bus) (n : Nat) (device : Device) : Bus :=
  { bus with devices := bus.devices.set n device }

/-- The number of the device plugged in under a PIN. -/
def numberOf? (bus : Bus) (pin : Pin) : Option Nat :=
  (bus.plugged.find? fun p => p.1.pin == pin).map (·.2)

/-- A connection for the device: the one there is, or a new one after unlocking the device. -/
def connect (bus : Bus) (info : DeviceInfo) (password : Option String) :
    Except Error ConnectionId × Bus :=
  match bus.live.lookup info.pin with
  | some id => (.ok id, bus)
  | none =>
    match bus.numberOf? info.pin with
    | none => (.error (.unknownDevice info.pin), bus)
    | some n =>
      match bus.devices[n]? with
      | none => (.error (.unknownDevice info.pin), bus)
      | some device =>
        match device.unlock password with
        | (.error e, device) => (.error e, bus.setDevice n device)
        | (.ok (), device) =>
          let id := bus.connections.length
          (.ok id,
            { bus.setDevice n device with
              connections := bus.connections ++ [{ info, device := n }]
              live := (info.pin, id) :: bus.live })

/-- Whether nobody holds the connection. -/
def isFree (bus : Bus) (id : ConnectionId) : Bool :=
  match bus.connections[id]? with
  | some c => !c.held
  | none => false

/-- Takes the connection for a holder, if nobody holds it. -/
def acquire? (bus : Bus) (id : ConnectionId) : Option Bus :=
  if bus.isFree id then
    some { bus with connections := bus.connections.modify id fun c => { c with held := true } }
  else none

/-- The holder gives the connection back. -/
def release (bus : Bus) (id : ConnectionId) : Bus :=
  { bus with connections := bus.connections.modify id fun c => { c with held := false } }

/-- The session of a connection. -/
def session (id : ConnectionId) : Session Bus where
  run c bus :=
    match bus.connections[id]? with
    | none => (.error .notConnected, bus)
    | some connection =>
      match bus.devices[connection.device]? with
      | none => (.error .notConnected, bus)
      | some device =>
        let (answer, device) := device.run c
        (answer, bus.setDevice connection.device device)

/-- A session for each connection. -/
abbrev Sessions := ConnectionId → Session Bus

/-- What commands are refused, on which connection and when, whatever their device would say. -/
abbrev Refusals := ConnectionId → Command → Bus → Option Error

/-- The bus after a command was refused on its connection.  The device did not get to do it, but it
is in the transcript. -/
def refuse (bus : Bus) (id : ConnectionId) (c : Command) : Bus :=
  match bus.connections[id]? with
  | none => bus
  | some connection =>
    match bus.devices[connection.device]? with
    | none => bus
    | some device =>
      bus.setDevice connection.device
        { device with transcript := ⟨c, false⟩ :: device.transcript }

/-- The sessions of the bus with some commands refused. -/
def sessionsWith (refusals : Refusals) : Sessions := fun id =>
  { run c bus :=
      match refusals id c bus with
      | some e => (.error e, bus.refuse id c)
      | none => (session id).run c bus }

end Bus

namespace Connection

/-- Why no connection can be made of a session. -/
inductive SetupError where
  | sessionClosed (info : DeviceInfo)

/-- The line for the developer whose bus handed out a dead session. -/
def SetupError.message : SetupError → String
  | .sessionClosed info => s!"ExclusiveDevice::new: session for {info.label} is not open"

/-- A connection over a session to device number `n`; the session has to be open. -/
def ofSession (info : DeviceInfo) (n : Nat) (isOpen : Bool) : Except SetupError Connection :=
  if isOpen then .ok { info, device := n } else .error (.sessionClosed info)

/-- The form for diagnosis. -/
def shown (c : Connection) : Text.Shown :=
  .block "ExclusiveDevice" [("info", c.info.shown), ("locked", .truth c.held)] false

end Connection

end Palmtop.Device
