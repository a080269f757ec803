import Palmtop.Device.Error
import Palmtop.Record

/-! # Errors of replicas

A write into a read-only database is told apart from every other refusal of the device, since it is
the one the user can do nothing about.
-/
namespace Palmtop.Replica

/-- Why a replica could not be loaded or edited. -/
inductive Error where
  /-- The catalog has no database of this name. -/
  | unknownDatabase (name : String)
  | readOnly (name : String)
  /-- The record is gone from the device. -/
  | staleEntry (id : UniqueId)
  /-- The device took a new record and does not list it. -/
  | reconnect (name : String)
  | device (error : Device.Error)
  /-- The worker of a warm-up could not be started. -/
  | noWorker
  deriving DecidableEq

namespace Error

/-- The error for a command the device refused. -/
def ofDevice : Device.Error → Error
  | .readOnly name => .readOnly name
  | e => .device e

/-- The line for the user. -/
def message : Error → String
  | .unknownDatabase name => s!"unknown database: {name}"
  | .readOnly name => s!"database is read-only: {name}"
  | .staleEntry id => s!"record {id.show} no longer exists on the device"
  | .reconnect name => s!"added record missing from {name}, reconnect the device"
  | .device e => s!"device error: {e.message}"
  | .noWorker => "could not start worker thread"

/-- The name of the cause, for programs that tell errors apart. -/
def kind : Error → String
  | .unknownDatabase _ => "UnknownDatabase"
  | .readOnly _ => "ReadOnly"
  | .staleEntry _ => "StaleEntry"
  | .reconnect _ => "Reconnect"
  | .device _ => "Device"
  | .noWorker => "Spawn"

/-- Whether trying again might succeed. -/
def isRetryable : Error → Bool
  | .device e => e.isRetryable
  | .noWorker => true
  | _ => false

/-- Whether an edit failed because its database takes none. -/
def isReadOnly : Error → Bool
  | .readOnly _ => true
  | _ => false

end Error

end Palmtop.Replica
