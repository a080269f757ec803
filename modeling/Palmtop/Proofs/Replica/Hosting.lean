import Palmtop.Device.Session
import Palmtop.Proofs.Device.Commands

/-! # Sessions that host a database

What an edit of a replica relies on is not a device in memory but a few laws.  A session *hosts* a
database when a refused command changes none of its records and an accepted one does what it says;
which commands are refused, and at which slots the records are after a mutation, is left open.

A session that hosts a database still does with a transcript in front of it (`Hosts.recorded`) and
with a plan that refuses any of its commands (`Hosts.refusing`).  A device in memory hosts each of
its databases as long as it is proper and the numbers of slots do not run over (`hosts_guarded`),
whatever faults are switched on.
-/
namespace Palmtop.Device

variable {σ : Type} {session : Session σ} {name : String} {id : DatabaseId}
  {view : σ → Slots Record}

/-- The session serves the database of this name under this id, and `view` is its records. -/
structure Hosts (session : Session σ) (name : String) (id : DatabaseId)
    (view : σ → Slots Record) : Prop where
  refused {c : Command} {s s' : σ} {e : Error} (h : session.run c s = (.error e, s')) :
    view s' = view s
  databaseId {s s' : σ} {i : DatabaseId} (h : session.databaseId name s = (.ok i, s')) :
    i = id ∧ view s' = view s
  slotTable {s s' : σ} {t : SlotTable} (h : session.slotTable id s = (.ok t, s')) :
    t.ids = (view s).map (·.uniqueId) ∧ view s' = view s
  readRecord {s s' : σ} {slot : Slot} {r : Record}
    (h : session.readRecord id slot s = (.ok r, s')) :
    (view s).get? slot = some r ∧ view s' = view s
  writeRecord {s s' : σ} {slot : Slot} {r : Record} (hr : r.database = name)
    (h : session.writeRecord id slot r s = (.ok (), s')) :
    (∃ old, (view s).get? slot = some old) ∧
      (view s').values.Perm ((view s).insert slot r).values
  addRecord {s s' : σ} {r : Record} (hr : r.database = name)
    (h : session.addRecord id r s = (.ok (), s')) :
    r.uniqueId ∉ (view s).values.map (·.uniqueId) ∧ (view s').values.Perm (r :: (view s).values)
  deleteRecord {s s' : σ} {slot : Slot} (h : session.deleteRecord id slot s = (.ok (), s')) :
    (∃ old, (view s).get? slot = some old) ∧
      (view s').values.Perm ((view s).erase slot).values

/-! ## The transcript -/

theorem run_recorded (session : Session σ) (c : Command) (s : σ × List Exchange) :
    session.recorded.run c s = ((session.run c s.1).1, (session.run c s.1).2,
      ⟨c, accepted (session.run c s.1).1⟩ :: s.2) := rfl

/-- What was recorded happened. -/
theorem of_recorded {c : Command} {s s' : σ × List Exchange} {answer : Except Error c.Answer}
    (h : session.recorded.run c s = (answer, s')) :
    session.run c s.1 = (answer, s'.1) ∧ s'.2 = ⟨c, accepted answer⟩ :: s.2 := by
  rw [run_recorded] at h
  obtain ⟨rfl, rfl⟩ := Prod.mk.inj h
  exact ⟨rfl, rfl⟩

theorem Hosts.recorded (hosts : Hosts session name id view) :
    Hosts session.recorded name id fun s => view s.1 where
  refused h := hosts.refused (of_recorded h).1
  databaseId h := hosts.databaseId (of_recorded h).1
  slotTable h := hosts.slotTable (of_recorded h).1
  readRecord h := hosts.readRecord (of_recorded h).1
  writeRecord hr h := hosts.writeRecord hr (of_recorded h).1
  addRecord hr h := hosts.addRecord hr (of_recorded h).1
  deleteRecord h := hosts.deleteRecord (of_recorded h).1

/-! ## Refusals -/

/-- The session that refuses the commands its plan marks; what comes after the plan goes through. -/
def Session.refusing (session : Session σ) : Session (σ × List Bool) where
  run c s :=
    match s.2 with
    | true :: plan => (.error .notConnected, s.1, plan)
    | false :: plan => ((session.run c s.1).1, (session.run c s.1).2, plan)
    | [] => ((session.run c s.1).1, (session.run c s.1).2, [])

/-- Either the plan takes a command or it goes through. -/
theorem of_refusing {c : Command} {s s' : σ × List Bool} {answer : Except Error c.Answer}
    (h : session.refusing.run c s = (answer, s')) :
    (answer = .error .notConnected ∧ s'.1 = s.1) ∨ session.run c s.1 = (answer, s'.1) := by
  obtain ⟨s, plan⟩ := s
  match plan, h with
  | [], h =>
    obtain ⟨rfl, rfl⟩ := Prod.mk.inj h
    exact Or.inr rfl
  | true :: plan, h =>
    obtain ⟨rfl, rfl⟩ := Prod.mk.inj h
    exact Or.inl ⟨rfl, rfl⟩
  | false :: plan, h =>
    obtain ⟨rfl, rfl⟩ := Prod.mk.inj h
    exact Or.inr rfl

/-- What was accepted went through. -/
theorem of_refusing_ok {c : Command} {s s' : σ × List Bool} {answer : c.Answer}
    (h : session.refusing.run c s = (.ok answer, s')) : session.run c s.1 = (.ok answer, s'.1) :=
  (of_refusing h).resolve_left fun hn => by cases hn.1

theorem Hosts.refusing (hosts : Hosts session name id view) :
    Hosts session.refusing name id fun s => view s.1 where
  refused h := by
    rcases of_refusing h with ⟨-, hs⟩ | hrun
    · rw [hs]
    · exact hosts.refused hrun
  databaseId h := hosts.databaseId (of_refusing_ok h)
  slotTable h := hosts.slotTable (of_refusing_ok h)
  readRecord h := hosts.readRecord (of_refusing_ok h)
  writeRecord hr h := hosts.writeRecord hr (of_refusing_ok h)
  addRecord hr h := hosts.addRecord hr (of_refusing_ok h)
  deleteRecord h := hosts.deleteRecord (of_refusing_ok h)

/-! ## A device in memory -/

section memory
variable {d d' : Device} {db : Database}

/-- The records of the database with this id. -/
def recordsAt (id : DatabaseId) (d : Device) : Slots Record :=
  ((d.database? id).map (·.records)).getD Slots.empty

theorem recordsAt_of_database? (h : d.database? id = some db) : recordsAt id d = db.records := by
  rw [recordsAt, h]
  rfl

@[simp] theorem recordsAt_logged (e : Exchange) :
    recordsAt id (d.logged e) = recordsAt id d := rfl

theorem values_recordsAt_mutate {new : Database} (hr : d.Room 1) (h : d.database? id = some db)
    (hs : new.records.size ≤ db.records.size + 1) :
    (recordsAt id (d.mutate id new)).values = new.records.values := by
  have hat : (d.mutate id new).database? id = some (d.stored new) := by
    rw [database?_mutate h, if_pos rfl]
  rw [recordsAt_of_database? hat, values_stored (n := 0) hr (database?_mem h) hs]

/-- When a device in memory serves the database of this name under this id. -/
def Serves (name : String) (id : DatabaseId) (d : Device) : Prop :=
  d.Proper ∧ d.Room 1 ∧ (d.database? id).map (·.name) = some name

instance (name : String) (id : DatabaseId) (d : Device) : Decidable (d.Serves name id) :=
  inferInstanceAs (Decidable (_ ∧ _ ∧ _))

/-- The device as a session that refuses every command once it does not serve the database any
more, as when the numbers of slots have run out. -/
def guarded (name : String) (id : DatabaseId) : Session Device where
  run c d := if d.Serves name id then d.run c else (.error .notConnected, d)

/-- What a guarded device accepted, it executed. -/
theorem of_guarded {c : Command} {answer : c.Answer}
    (h : (guarded name id).run c d = (.ok answer, d')) :
    ∃ after e, d.Serves name id ∧ d.execute c = (.ok answer, after) ∧ d' = after.logged e := by
  simp only [guarded] at h
  split at h
  · rename_i hserves
    rw [run_eq] at h
    obtain ⟨hanswer, rfl⟩ := Prod.mk.inj h
    exact ⟨_, _, hserves, Prod.ext hanswer rfl, rfl⟩
  · cases h

theorem hosts_guarded (name : String) (id : DatabaseId) :
    Hosts (guarded name id) name id (recordsAt id) where
  refused {c s s' e} h := by
    simp only [guarded] at h
    split at h
    · rw [run_eq] at h
      obtain ⟨hanswer, rfl⟩ := Prod.mk.inj h
      have hsame : (s.execute c).2 = s := execute_refused (Prod.ext hanswer rfl)
      rw [recordsAt_logged, hsame]
    · rw [(Prod.mk.inj h).2]
  databaseId {s s' i} h := by
    obtain ⟨after, e, ⟨hproper, -, hname⟩, hrun, rfl⟩ := of_guarded h
    obtain ⟨db, hdb, rfl⟩ := Option.map_eq_some_iff.mp hname
    obtain ⟨j, hj, hat⟩ := hproper.databaseId_of_named? (hproper.named?_of_database? hdb)
    rw [hj] at hrun
    obtain ⟨hi, rfl⟩ := Prod.mk.inj hrun
    exact ⟨by rw [← Except.ok.inj hi, hproper.database?_inj hat hdb rfl], recordsAt_logged e⟩
  slotTable {s s' t} h := by
    obtain ⟨after, e, -, hrun, rfl⟩ := of_guarded h
    simp only [execute] at hrun
    split at hrun
    · cases hrun
    rename_i db hreach
    split at hrun
    · cases hrun
    obtain ⟨ht, rfl⟩ := Prod.mk.inj hrun
    rw [← Except.ok.inj ht, recordsAt_logged, recordsAt_of_database? (database?_of_reach hreach)]
    exact ⟨rfl, rfl⟩
  readRecord {s s' slot r} h := by
    obtain ⟨after, e, -, hrun, rfl⟩ := of_guarded h
    simp only [execute] at hrun
    split at hrun
    · cases hrun
    rename_i db hreach
    split at hrun
    · rename_i x hx
      obtain ⟨hr, rfl⟩ := Prod.mk.inj hrun
      rw [recordsAt_logged, recordsAt_of_database? (database?_of_reach hreach),
        ← Except.ok.inj hr]
      exact ⟨hx, rfl⟩
    · cases hrun
  writeRecord {s s' slot r} hr h := by
    obtain ⟨after, e, ⟨-, hroom, hname⟩, hrun, rfl⟩ := of_guarded h
    obtain ⟨db, old, hdb, hold, rfl⟩ := writeRecord_accepted hrun
    have hin : r.inDatabase db.name = r := by
      rw [hdb] at hname
      exact inDatabase_eq_self (hr.trans (Option.some.inj hname).symm)
    have hkeys := Slots.keys_insert_of_get? hold r
    have hsize : (db.records.insert slot r).size = db.records.size := by
      rw [← Slots.length_keys, hkeys, Slots.length_keys]
    rw [hin, recordsAt_logged, values_recordsAt_mutate hroom hdb (by simp [hsize]),
      recordsAt_of_database? hdb]
    exact ⟨⟨old, hold⟩, .refl _⟩
  addRecord {s s' r} hr h := by
    obtain ⟨after, e, ⟨-, hroom, hname⟩, hrun, rfl⟩ := of_guarded h
    obtain ⟨db, hdb, hnew, rfl⟩ := addRecord_accepted hrun
    have hin : r.inDatabase db.name = r := by
      rw [hdb] at hname
      exact inDatabase_eq_self (hr.trans (Option.some.inj hname).symm)
    have hvalues := Slots.values_insert_next (hroom.slots db (database?_mem hdb)) r
    have hsize : (db.records.insert db.records.next r).size = db.records.size + 1 := by
      rw [← Slots.length_values, hvalues, List.length_append, Slots.length_values]
      rfl
    rw [hin, recordsAt_logged, values_recordsAt_mutate hroom hdb (by simp [hsize]), hvalues,
      recordsAt_of_database? hdb]
    exact ⟨hnew, List.perm_append_singleton _ _⟩
  deleteRecord {s s' slot} h := by
    obtain ⟨after, e, ⟨-, hroom, -⟩, hrun, rfl⟩ := of_guarded h
    obtain ⟨db, old, hdb, hold, rfl⟩ := deleteRecord_accepted hrun
    have hsize : (db.records.erase slot).size ≤ db.records.size := List.length_filter_le _ _
    rw [recordsAt_logged, values_recordsAt_mutate hroom hdb (Nat.le_succ_of_le hsize),
      recordsAt_of_database? hdb]
    exact ⟨⟨old, hold⟩, .refl _⟩

end memory

end Palmtop.Device
