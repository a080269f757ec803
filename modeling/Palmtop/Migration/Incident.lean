import Palmtop.Migration.Run

/-! # Incidents

What can befall a migration from outside: the user cancels it, a device fails or changes its mind,
is plugged in or pulled, a file goes or changes.  Between two looks of the worker at the world
nothing else can be told apart, so an incident strikes between two steps.

A moment is told by what a device was asked: when a certain record has been read, or when so many
records have been added.
-/
namespace Palmtop.Migration

/-- Something that happens to a run.  Devices go by their numbers. -/
inductive Incident where
  /-- The user asks the worker to stop. -/
  | cancel
  | breakLink (device : Nat)
  /-- A database of a device starts or stops refusing its slot table. -/
  | refuseTable (device : Nat) (database : String) (refusing : Bool)
  | unplug (pin : Pin)
  | plugIn (info : DeviceInfo) (device : Device)
  | removeFile (path : Path)
  | writeFile (path : Path) (bytes : ByteArray)

namespace Incident

/-- The run with a device changed. -/
def changeDevice (r : Run) (n : Nat) (change : Device → Device) : Run :=
  match r.bus.devices[n]? with
  | some device => { r with bus := r.bus.setDevice n (change device) }
  | none => r

/-- The run with the files changed, if they can be. -/
def changeFiles (r : Run) (change : Files → Except FileError Files) : Run :=
  match change r.files with
  | .ok files => { r with files }
  | .error _ => r

end Incident

open Incident in
/-- The run after an incident. -/
def Run.suffer (r : Run) : Incident → Run
  | .cancel => r.cancel
  | .breakLink n => changeDevice r n Device.breakLink
  | .refuseTable n database refusing =>
    changeDevice r n fun device =>
      match device.configure database fun d => { d with refusingSlotTable := refusing } with
      | .ok device => device
      | .error _ => device
  | .unplug pin => { r with bus := r.bus.unplug pin }
  | .plugIn info device => { r with bus := r.bus.plugIn info device }
  | .removeFile path => changeFiles r (·.remove path)
  | .writeFile path bytes => changeFiles r (·.write path bytes)

/-- A moment in the life of device number `device`. -/
inductive Moment where
  /-- The record with this id has just been read. -/
  | recordRead (device : Nat) (id : UniqueId)
  /-- So many records have been added. -/
  | recordsAdded (device : Nat) (count : Nat)

/-- Whether the moment lies between two states of the bus. -/
def Moment.between (before after : Device.Bus) : Moment → Bool
  | .recordRead n id =>
    match before.devices[n]?, after.devices[n]? with
    | some old, some new => (new.idsReadSince old).contains id
    | _, _ => false
  | .recordsAdded n count =>
    match before.devices[n]?, after.devices[n]? with
    | some old, some new => old.recordsAdded < count && count ≤ new.recordsAdded
    | _, _ => false

end Palmtop.Migration
