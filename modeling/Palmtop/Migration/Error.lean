import Palmtop.Archive.Error
import Palmtop.Device.Error

/-! # Errors of a migration -/
namespace Palmtop.Migration

/-- Why a migration ended early. -/
inductive Error where
  /-- The user asked it to stop or left a question unanswered. -/
  | cancelled
  | device (error : Device.Error)
  | archive (error : Archive.Error)
  /-- The worker could not be started. -/
  | noWorker
  deriving DecidableEq

namespace Error

/-- The line for the user. -/
def message : Error → String
  | .cancelled => "cancelled by user"
  | .device e => s!"device error: {e.message}"
  | .archive e => s!"archive error: {e.message}"
  | .noWorker => "could not start migration worker"

/-- The name of the cause, for programs that tell errors apart. -/
def kind : Error → String
  | .cancelled => "Cancelled"
  | .device _ => "Device"
  | .archive _ => "Archive"
  | .noWorker => "Spawn"

/-- Whether trying again might succeed. -/
def isRetryable : Error → Bool
  | .cancelled => false
  | .device e => e.isRetryable
  | .archive e => e.isRetryable
  | .noWorker => true

/-- Whether the user ended the migration. -/
def isCancelled : Error → Bool
  | .cancelled => true
  | _ => false

end Error

end Palmtop.Migration
