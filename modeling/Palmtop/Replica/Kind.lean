/-! # Kinds of databases

A device overwrites a record in place, except in the task list, whose records can only be deleted
and added again.  The kind of a database is decided by its name.
-/
namespace Palmtop.Replica

/-- How a database takes changed records. -/
inductive Kind where
  | standard
  /-- The task list. -/
  | tasks
  deriving DecidableEq

namespace Kind

/-- The kind of the database of this name. -/
def ofName (name : String) : Kind := if name = "Tasks" then .tasks else .standard

/-- Whether a record can be overwritten where it is. -/
def overwritesInPlace : Kind → Bool
  | .standard => true
  | .tasks => false

/-- The word for the user. -/
def label : Kind → String
  | .standard => "standard"
  | .tasks => "tasks"

end Kind

end Palmtop.Replica
