/-! # Phases of a migration -/
namespace Palmtop.Migration

/-- Where a migration is. -/
inductive Phase where
  | idle
  | backup
  /-- Settling on the device to restore into. -/
  | resolveDestination
  | restore
  | done
  | aborted
  deriving DecidableEq

namespace Phase

/-- Every phase, in order. -/
def all : List Phase := [.idle, .backup, .resolveDestination, .restore, .done, .aborted]

/-- The words for the user. -/
def label : Phase → String
  | .idle => "idle"
  | .backup => "backing up"
  | .resolveDestination => "waiting for destination"
  | .restore => "restoring"
  | .done => "done"
  | .aborted => "aborted"

/-- Whether a migration in this phase is over. -/
def isTerminal : Phase → Bool
  | .done | .aborted => true
  | _ => false

end Phase

end Palmtop.Migration
