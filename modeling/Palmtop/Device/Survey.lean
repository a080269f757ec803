import Palmtop.Device.Session

/-! # Surveys

Everything a session shows of a device: every database of the catalog and every record in it, or the
error in its place.
-/
namespace Palmtop.Device

variable {σ : Type} (session : Session σ)

/-- A database as a session shows it. -/
abbrev Database.Survey := Except Error (List (Slot × Except Error Record))

/-- The records of a database at their slots. -/
def surveyDatabase (name : String) (s : σ) : Database.Survey × σ :=
  match session.databaseId name s with
  | (.error e, s) => (.error e, s)
  | (.ok id, s) =>
    match session.slotTable id s with
    | (.error e, s) => (.error e, s)
    | (.ok table, s) =>
      let (rows, s) := table.slots.foldl (fun (rows, s) slot =>
        let (answer, s) := session.readRecord id slot s
        ((slot, answer) :: rows, s)) ([], s)
      (.ok rows.reverse, s)

/-- The databases of the catalog and what is in them. -/
def survey (s : σ) : Except Error (List (String × Database.Survey)) × σ :=
  match session.catalog s with
  | (.error e, s) => (.error e, s)
  | (.ok entries, s) =>
    let (rows, s) := entries.foldl (fun (rows, s) entry =>
      let (content, s) := surveyDatabase session entry.name s
      ((entry.name, content) :: rows, s)) ([], s)
    (.ok rows.reverse, s)

end Palmtop.Device
