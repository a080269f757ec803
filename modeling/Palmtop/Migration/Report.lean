import Palmtop.Path

/-! # Reports -/
namespace Palmtop.Migration

/-- How a migration ended. -/
inductive Outcome where
  | completed
  | cancelled
  | failed (reason : String)
  deriving DecidableEq

/-- What a migration did. -/
structure Report where
  outcome : Outcome := .cancelled
  /-- Records put into the archive. -/
  backedUp : Nat := 0
  /-- Records written to the destination. -/
  restored : Nat := 0
  /-- Databases given up in the middle of the restore. -/
  skipped : List String := []
  /-- The archive, if the backup went through. -/
  archivePath : Option Path := none
  deriving DecidableEq

namespace Report

/-- Whether the migration went through. -/
def isCompleted (r : Report) : Bool := r.outcome == .completed

/-- The outcome on one line. -/
def summary (r : Report) : String :=
  match r.outcome with
  | .completed =>
    if r.skipped = [] then "completed"
    else "completed with skipped databases: " ++ ", ".intercalate r.skipped
  | .cancelled => "cancelled by user"
  | .failed reason => s!"failed: {reason}"

end Report

end Palmtop.Migration
