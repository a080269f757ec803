import Palmtop.Replica.Basic

/-! # Replicas of a device

A registry keeps the replicas of one device and loads each database at most once: a database already
loaded is found without a command to the device, and a database the catalog does not list is refused
without one.  A load that fails leaves the registry as it was, so it can be tried again.

Replicas are numbered in the order they were loaded; the number is what callers share.
-/
namespace Palmtop.Replica

/-- How a loaded replica is referred to. -/
abbrev ReplicaId := Nat

/-- The databases a device lists and the replicas loaded so far. -/
structure Registry where
  catalog : List CatalogEntry
  /-- Every replica, by number. -/
  replicas : List Replica := []

namespace Registry

variable {σ : Type} (session : Device.Session σ)

/-- A registry for the databases the device lists now. -/
def ofDevice (s : σ) : Except Error Registry × σ :=
  match session.catalog s with
  | (.error e, s) => (.error (.ofDevice e), s)
  | (.ok catalog, s) => (.ok { catalog }, s)

/-- The number of the replica of this database. -/
def get? (r : Registry) (name : String) : Option ReplicaId :=
  r.replicas.findIdx? (·.name == name)

/-- The names of the databases loaded. -/
def loaded (r : Registry) : List String := r.replicas.map (·.name)

/-- Whether the catalog lists a database of this name. -/
def lists (r : Registry) (name : String) : Bool := r.catalog.any (·.name == name)

/-- The registry with one more replica, which gets the next number. -/
def insert (r : Registry) (replica : Replica) : Registry :=
  { r with replicas := r.replicas ++ [replica] }

/-- The registry with another state of a replica. -/
def set (r : Registry) (id : ReplicaId) (replica : Replica) : Registry :=
  { r with replicas := r.replicas.set id replica }

/-- Reads a database from the device and keeps its replica. -/
def fetch (r : Registry) (name : String) (s : σ) : Except Error ReplicaId × Registry × σ :=
  match Replica.load session name s with
  | (.error e, s) => (.error e, r, s)
  | (.ok replica, s) => (.ok r.replicas.length, r.insert replica, s)

/-- The replica of a database, read from the device unless it was before. -/
def load (r : Registry) (name : String) (s : σ) : Except Error ReplicaId × Registry × σ :=
  match r.get? name with
  | some id => (.ok id, r, s)
  | none => if r.lists name then r.fetch session name s else (.error (.unknownDatabase name), r, s)

end Registry

end Palmtop.Replica
