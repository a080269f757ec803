import Palmtop.Proofs.Device.Memory

/-! # Databases as sequences of records

Seen without its slots a database is a sequence of records, and what a mutation does to the sequence
can be said by places in it: one record is put over another, comes last or goes, or all go
(`Alteration`).  Which records are moved to fresh slots does not show.

* `accepted_iff` says when a command that would alter a database is accepted, and `values_altered`
  what becomes of the records.  Neither asks whether the device renumbers.
* `values_after` is the run lemma: after any commands the records are as the alterations made in
  between leave them, one after another.
* Two devices that differ in their slots alone are `Alike`, and stay so under commands that address
  the same places (`Alike.after`).
-/
namespace Palmtop

/-! ## Places -/

namespace Slots

variable {α : Type} {s : Slots α} {slot : Slot} {place : Nat}

/-- How many slots in use lie before this one, if it is in use. -/
def place? (s : Slots α) (slot : Slot) : Option Nat := s.keys.idxOf? slot

theorem place?_eq_some_iff : s.place? slot = some place ↔ s.keys[place]? = some slot := by
  rw [place?, List.idxOf?_eq_some_iff]
  constructor
  · rintro ⟨hlt, hat, -⟩
    rw [List.getElem?_eq_getElem hlt, hat]
  · intro h
    obtain ⟨hlt, hat⟩ := List.getElem?_eq_some_iff.mp h
    refine ⟨hlt, hat, ?_⟩
    intro j hj hsame
    have hjlt : j < s.keys.length := by omega
    have hboth : s.keys[j]? = s.keys[place]? := by
      rw [List.getElem?_eq_getElem hjlt, hsame, h]
    have : j = place := (List.getElem?_inj hjlt s.keys_nodup).mp hboth
    omega

theorem exists_get?_of_place? (h : s.place? slot = some place) :
    ∃ a, s.get? slot = some a ∧ s.values[place]? = some a := by
  have hkey := place?_eq_some_iff.mp h
  rw [keys, List.getElem?_map] at hkey
  obtain ⟨q, hq, rfl⟩ := Option.map_eq_some_iff.mp hkey
  refine ⟨q.2, get?_eq_some_iff.mpr (List.mem_of_getElem? hq), ?_⟩
  rw [values, List.getElem?_map, hq, Option.map_some]

theorem exists_place?_of_get? {a : α} (h : s.get? slot = some a) :
    ∃ place, s.place? slot = some place ∧ s.values[place]? = some a := by
  obtain ⟨place, hat⟩ := List.mem_iff_getElem?.mp (get?_eq_some_iff.mp h)
  refine ⟨place, place?_eq_some_iff.mpr ?_, ?_⟩
  · rw [keys, List.getElem?_map, hat, Option.map_some]
  · rw [values, List.getElem?_map, hat, Option.map_some]

/-- The pairs before the one at a slot in use, and those behind it. -/
theorem exists_split (h : s.place? slot = some place) :
    ∃ front old back, s.pairs = front ++ (slot, old) :: back ∧ front.length = place ∧
      (∀ p ∈ front, p.1 ≠ slot) ∧ ∀ p ∈ back, p.1 ≠ slot := by
  have hkey := place?_eq_some_iff.mp h
  rw [keys, List.getElem?_map] at hkey
  obtain ⟨q, hq, rfl⟩ := Option.map_eq_some_iff.mp hkey
  obtain ⟨hlt, hat⟩ := List.getElem?_eq_some_iff.mp hq
  have hsplit : s.pairs = s.pairs.take place ++ q :: s.pairs.drop (place + 1) := by
    rw [← hat, List.getElem_cons_drop, List.take_append_drop]
  have hsorted := s.sorted
  rw [hsplit] at hsorted
  obtain ⟨-, hback, hfront⟩ := List.pairwise_append.mp hsorted
  refine ⟨_, q.2, _, hsplit, List.length_take_of_le (Nat.le_of_lt hlt), ?_, ?_⟩
  · intro p hp he
    have hless := hfront p hp q List.mem_cons_self
    rw [he] at hless
    exact UInt32.lt_irrefl _ hless
  · intro p hp he
    have hless := (List.pairwise_cons.mp hback).1 p hp
    rw [he] at hless
    exact UInt32.lt_irrefl _ hless

/-- A value put over another takes its place. -/
theorem values_insert_of_place? (h : s.place? slot = some place) (a : α) :
    (s.insert slot a).values = s.values.set place a := by
  obtain ⟨_, hold, -⟩ := exists_get?_of_place? h
  obtain ⟨front, old, back, hpairs, rfl, hfront, hback⟩ := exists_split h
  have hkept : ∀ l : List (Slot × α), (∀ p ∈ l, p.1 ≠ slot) →
      (l.map fun p => if p.1 = slot then (slot, a) else p) = l := by
    intro l hl
    exact (List.map_congr_left fun p hp => if_neg (hl p hp)).trans (List.map_id l)
  rw [values, pairs_insert_of_get? hold, values, hpairs, List.map_append, List.map_cons,
    hkept front hfront, hkept back hback, if_pos rfl]
  simp

theorem values_erase_of_place? (h : s.place? slot = some place) :
    (s.erase slot).values = s.values.eraseIdx place := by
  obtain ⟨front, old, back, hpairs, rfl, hfront, hback⟩ := exists_split h
  have hkept : ∀ l : List (Slot × α), (∀ p ∈ l, p.1 ≠ slot) →
      (l.filter fun p => p.1 != slot) = l := by
    intro l hl
    exact List.filter_eq_self.mpr fun p hp => bne_iff_ne.mpr (hl p hp)
  rw [values, erase_pairs, values, hpairs, List.filter_append, List.filter_cons_of_neg (by simp),
    hkept front hfront, hkept back hback]
  simp [List.eraseIdx_append_of_length_le]

end Slots

namespace Device

/-! ## Alterations -/

/-- What a mutation does to the records of a database, by their places in the order. -/
inductive Alteration where
  | replaced (place : Nat) (r : Record)
  | appended (r : Record)
  | removed (place : Nat)
  | cleared
  deriving DecidableEq

/-- The records altered. -/
def Alteration.apply : Alteration → List Record → List Record
  | .replaced place r, rs => rs.set place r
  | .appended r, rs => rs ++ [r]
  | .removed place, rs => rs.eraseIdx place
  | .cleared, _ => []

/-- The records after these alterations, one after another. -/
def Alteration.applyAll (as : List Alteration) (rs : List Record) : List Record :=
  as.foldl (fun rs a => a.apply rs) rs

/-- Whether a renumbering device moves the records to fresh slots after it. -/
def Alteration.moves : Alteration → Bool
  | .cleared => false
  | _ => true

/-- The alteration a command asks this database for; none if it asks for none, or for one of a slot
not in use. -/
def Command.alteration? (db : Database) : Command → Option Alteration
  | .writeRecord _ slot r =>
    (db.records.place? slot).map fun place => .replaced place (r.inDatabase db.name)
  | .addRecord _ r => some (.appended (r.inDatabase db.name))
  | .deleteRecord _ slot => (db.records.place? slot).map .removed
  | .clearDatabase _ => some .cleared
  | .catalog | .databaseId _ | .slotTable _ | .readRecord _ _ => none

/-- The database as the command changes it, with every record where the command leaves it. -/
def Database.changedBy (db : Database) : Command → Database
  | .writeRecord _ slot r =>
    { db with records := db.records.insert slot (r.inDatabase db.name) }
  | .addRecord _ r =>
    { db with records := db.records.insert db.records.next (r.inDatabase db.name) }
  | .deleteRecord _ slot => { db with records := db.records.erase slot }
  | .clearDatabase _ => { db with records := Slots.empty }
  | .catalog | .databaseId _ | .slotTable _ | .readRecord _ _ => db

/-- The database as the device stores it after the command. -/
def altered (d : Device) (db : Database) (a : Alteration) (c : Command) : Database :=
  if a.moves then d.stored (db.changedBy c) else db.changedBy c

/-- Whether the faults of the database and the ids in it let an alteration pass. -/
def Database.Takes (db : Database) : Alteration → Prop
  | .appended r => db.growthRefusal = none ∧ r.uniqueId ∉ db.uniqueIds
  | .replaced _ _ | .removed _ | .cleared => db.writeRefusal = none

theorem Alteration.length_apply_le (a : Alteration) (rs : List Record) :
    (a.apply rs).length ≤ rs.length + 1 := by
  cases a with
  | replaced place r => simp [apply]
  | appended r => simp [apply]
  | removed place =>
    have := List.length_eraseIdx_le rs place
    simp only [apply]
    omega
  | cleared => simp [apply]

theorem Alteration.applyAll_append (as as' : List Alteration) (rs : List Record) :
    applyAll (as ++ as') rs = applyAll as' (applyAll as rs) := List.foldl_append

/-! ## One command -/

section command
variable {d : Device} {id : DatabaseId} {db : Database} {a : Alteration} {c : Command}

theorem isMutation_of_alteration? (ha : c.alteration? db = some a) : c.isMutation = true := by
  cases c with
  | writeRecord | addRecord | deleteRecord | clearDatabase => rfl
  | catalog | databaseId | slotTable | readRecord => cases ha

theorem bare_changedBy (db : Database) (c : Command) : (db.changedBy c).bare = db.bare := by
  cases c <;> rfl

@[simp] theorem bare_altered (d : Device) (db : Database) (a : Alteration) (c : Command) :
    (d.altered db a c).bare = db.bare := by
  unfold altered
  split
  · rw [bare_stored, bare_changedBy]
  · rw [bare_changedBy]

/-- The link, the faults of the database and the ids in it decide whether it is altered; the slots
play no part. -/
theorem accepted_iff (hdb : d.database? id = some db) (hc : c.database? = some id)
    (ha : c.alteration? db = some a) :
    accepted (d.execute c).1 = true ↔ d.linkBroken = false ∧ db.Takes a := by
  by_cases hl : d.linkBroken = true
  · have hreach : d.reach id = .error (.unreachable "link dropped") := by simp [reach, hl]
    cases c with
    | writeRecord | addRecord | deleteRecord | clearDatabase =>
      cases hc
      simp [execute, hreach, accepted, hl]
    | catalog | databaseId | slotTable | readRecord => cases ha
  rw [Bool.not_eq_true] at hl
  have hreach := reach_eq hl hdb
  cases c with
  | writeRecord _ slot r =>
    cases hc
    obtain ⟨place, hplace, rfl⟩ := Option.map_eq_some_iff.mp ha
    obtain ⟨old, hold, -⟩ := Slots.exists_get?_of_place? hplace
    cases hw : db.writeRefusal <;>
      simp [execute, hreach, accepted, hl, hw, hold, Database.Takes]
  | addRecord _ r =>
    cases hc
    cases ha
    cases hg : db.growthRefusal with
    | none =>
      by_cases hr : r.uniqueId ∈ db.uniqueIds <;>
        simp [execute, hreach, accepted, hl, hg, hr, Database.Takes, Database.addRefusal_eq hg,
          Record.inDatabase]
    | some e =>
      have hrefused := execute_of_refusal (c := .addRecord id r) hl rfl hdb hg
      simp [hrefused, accepted, Database.Takes, hg]
  | deleteRecord _ slot =>
    cases hc
    obtain ⟨place, hplace, rfl⟩ := Option.map_eq_some_iff.mp ha
    obtain ⟨old, hold, -⟩ := Slots.exists_get?_of_place? hplace
    cases hw : db.writeRefusal <;>
      simp [execute, hreach, accepted, hl, hw, hold, Database.Takes]
  | clearDatabase _ =>
    cases hc
    cases ha
    cases hw : db.writeRefusal <;> simp [execute, hreach, accepted, hl, hw, Database.Takes]
  | catalog | databaseId | slotTable | readRecord => cases ha

/-- The device after it altered the database at this id. -/
def storing (d : Device) (id : DatabaseId) (db : Database) (a : Alteration) (c : Command) :
    Device :=
  if a.moves then d.mutate id (db.changedBy c) else d.setDatabase id (db.changedBy c)

@[simp] theorem linkBroken_storing : (d.storing id db a c).linkBroken = d.linkBroken := by
  unfold storing
  split
  · exact linkBroken_mutate ..
  · rfl

theorem database?_storing (hdb : d.database? id = some db) (other : DatabaseId) :
    (d.storing id db a c).database? other
      = if other = id then some (d.altered db a c) else d.database? other := by
  unfold storing altered
  split
  · exact database?_mutate hdb other
  · exact database?_setDatabase hdb other

/-- An accepted mutation alters the database it addresses. -/
theorem exists_altered (hc : c.isMutation = true) (h : accepted (d.execute c).1 = true) :
    ∃ id db a, c.database? = some id ∧ d.database? id = some db ∧ c.alteration? db = some a ∧
      (d.execute c).2 = d.storing id db a c := by
  rcases hrun : d.execute c with ⟨e | answer, d'⟩
  · rw [hrun] at h
    cases h
  cases c with
  | writeRecord id slot r =>
    obtain ⟨db, old, hdb, hold, rfl⟩ := writeRecord_accepted hrun
    obtain ⟨place, hplace, -⟩ := Slots.exists_place?_of_get? hold
    exact ⟨id, db, .replaced place (r.inDatabase db.name), rfl, hdb,
      by rw [Command.alteration?, hplace, Option.map_some], rfl⟩
  | addRecord id r =>
    obtain ⟨db, hdb, -, rfl⟩ := addRecord_accepted hrun
    exact ⟨id, db, .appended (r.inDatabase db.name), rfl, hdb, rfl, rfl⟩
  | deleteRecord id slot =>
    obtain ⟨db, old, hdb, hold, rfl⟩ := deleteRecord_accepted hrun
    obtain ⟨place, hplace, -⟩ := Slots.exists_place?_of_get? hold
    exact ⟨id, db, .removed place, rfl, hdb,
      by rw [Command.alteration?, hplace, Option.map_some], rfl⟩
  | clearDatabase id =>
    obtain ⟨db, hdb, rfl⟩ := clearDatabase_accepted hrun
    exact ⟨id, db, .cleared, rfl, hdb, rfl, rfl⟩
  | catalog | databaseId | slotTable | readRecord => cases hc

/-- A command that is refused, or no mutation, leaves the device as it was; any other alters the
database it addresses. -/
theorem execute_alters (d : Device) (c : Command) : (d.execute c).2 = d ∨
    accepted (d.execute c).1 = true ∧ ∃ id db a, c.database? = some id ∧
      d.database? id = some db ∧ c.alteration? db = some a ∧
      (d.execute c).2 = d.storing id db a c := by
  by_cases hc : c.isMutation = true
  · by_cases haccepted : accepted (d.execute c).1 = true
    · exact Or.inr ⟨haccepted, exists_altered hc haccepted⟩
    · left
      cases hanswer : (d.execute c).1 with
      | error e => exact execute_refused (Prod.ext hanswer rfl)
      | ok answer =>
        rw [hanswer] at haccepted
        exact absurd rfl haccepted
  · left
    exact execute_of_not_isMutation (Bool.eq_false_of_not_eq_true hc)

@[simp] theorem linkBroken_run (d : Device) (c : Command) :
    (d.run c).2.linkBroken = d.linkBroken := by
  change (d.execute c).2.linkBroken = d.linkBroken
  rcases execute_alters d c with h | ⟨-, id, db, a, -, -, -, h⟩
  · rw [h]
  · rw [h, linkBroken_storing]

/-- The alteration the device makes to the database with this id when it is given a command. -/
def alteration? (d : Device) (id : DatabaseId) (c : Command) : Option Alteration :=
  if c.database? = some id ∧ accepted (d.execute c).1 = true then
    (d.database? id).bind fun db => c.alteration? db
  else none

theorem execute_of_alteration? (h : d.alteration? id c = some a) :
    ∃ db, d.database? id = some db ∧ c.alteration? db = some a ∧
      (d.execute c).2 = d.storing id db a c := by
  rw [alteration?] at h
  split at h
  · rename_i hc
    obtain ⟨db, hdb, ha⟩ := Option.bind_eq_some_iff.mp h
    obtain ⟨other, x, b, hother, hx, hb, hstoring⟩ :=
      exists_altered (isMutation_of_alteration? ha) hc.2
    obtain rfl : other = id := Option.some.inj (hother.symm.trans hc.1)
    obtain rfl : x = db := Option.some.inj (hx.symm.trans hdb)
    obtain rfl : b = a := Option.some.inj (hb.symm.trans ha)
    exact ⟨x, hdb, ha, hstoring⟩
  · cases h

/-- A command that makes no alteration to a database leaves it as it is. -/
theorem database?_run_of_none (h : d.alteration? id c = none) :
    (d.run c).2.database? id = d.database? id := by
  change (d.execute c).2.database? id = d.database? id
  rcases execute_alters d c with hsame | ⟨haccepted, other, db, a, hother, hdb, ha, hstoring⟩
  · rw [hsame]
  · have hne : id ≠ other := by
      rintro rfl
      rw [alteration?, if_pos ⟨hother, haccepted⟩, hdb, Option.bind_some, ha] at h
      cases h
    rw [hstoring, database?_storing hdb, if_neg hne]

/-- A database that a command does not address stays as it is, with every record at its slot. -/
theorem database?_run_of_ne (h : c.database? ≠ some id) :
    (d.run c).2.database? id = d.database? id :=
  database?_run_of_none (if_neg fun hc => h hc.1)

/-- A database that is altered is stored so. -/
theorem database?_run_of_some (h : d.alteration? id c = some a) :
    ∃ db, d.database? id = some db ∧ c.alteration? db = some a ∧
      (d.run c).2.database? id = some (d.altered db a c) := by
  obtain ⟨db, hdb, ha, hstoring⟩ := execute_of_alteration? h
  refine ⟨db, hdb, ha, ?_⟩
  change (d.execute c).2.database? id = _
  rw [hstoring, database?_storing hdb, if_pos rfl]

/-- A database stays as it is, or is altered. -/
theorem database?_run_cases (hdb : d.database? id = some db) (c : Command) :
    d.alteration? id c = none ∧ (d.run c).2.database? id = some db ∨
      ∃ a, d.alteration? id c = some a ∧ c.alteration? db = some a ∧
        (d.run c).2.database? id = some (d.altered db a c) := by
  cases h : d.alteration? id c with
  | none => exact Or.inl ⟨rfl, (database?_run_of_none h).trans hdb⟩
  | some a =>
    obtain ⟨x, hx, ha, haltered⟩ := database?_run_of_some h
    obtain rfl : x = db := Option.some.inj (hx.symm.trans hdb)
    exact Or.inr ⟨a, rfl, ha, haltered⟩

/-- What the command makes of the records, before they are moved. -/
theorem values_changedBy (ha : c.alteration? db = some a)
    (hroom : ∀ k ∈ db.records.keys, k.toNat + 1 < UInt32.size) :
    (db.changedBy c).records.values = a.apply db.records.values := by
  cases c with
  | writeRecord _ slot r =>
    obtain ⟨place, hplace, rfl⟩ := Option.map_eq_some_iff.mp ha
    exact Slots.values_insert_of_place? hplace _
  | addRecord _ r =>
    cases ha
    exact Slots.values_insert_next hroom _
  | deleteRecord _ slot =>
    obtain ⟨place, hplace, rfl⟩ := Option.map_eq_some_iff.mp ha
    exact Slots.values_erase_of_place? hplace
  | clearDatabase _ =>
    cases ha
    rfl
  | catalog | databaseId | slotTable | readRecord => cases ha

theorem size_changedBy (hr : d.Room 1) (hdb : d.database? id = some db)
    (ha : c.alteration? db = some a) :
    (db.changedBy c).records.size ≤ db.records.size + 1 := by
  have hvalues := values_changedBy ha (hr.slots db (database?_mem hdb))
  have hlength := a.length_apply_le db.records.values
  rwa [← hvalues, Slots.length_values, Slots.length_values] at hlength

/-- The records are altered alike whether or not they are moved. -/
theorem values_altered (hr : d.Room 1) (hdb : d.database? id = some db)
    (ha : c.alteration? db = some a) :
    (d.altered db a c).records.values = a.apply db.records.values := by
  have hmem := database?_mem hdb
  have hvalues := values_changedBy ha (hr.slots db hmem)
  unfold altered
  split
  · rw [values_stored hr hmem (size_changedBy hr hdb ha), hvalues]
  · exact hvalues

end command

/-! ## Any commands -/

section commands
variable {d t : Device} {id : DatabaseId} {db : Database} {c c' : Command} {cs cs' : List Command}

/-- The device after these commands, whether it accepts them or not. -/
def after (d : Device) (cs : List Command) : Device := cs.foldl (fun d c => (d.run c).2) d

/-- The alterations these commands make to the database with this id, in their order. -/
def alterations (d : Device) (id : DatabaseId) : List Command → List Alteration
  | [] => []
  | c :: cs => (d.alteration? id c).toList ++ (d.run c).2.alterations id cs

/-- Every mutation among these commands has room when its turn comes. -/
def Ample (d : Device) : List Command → Prop
  | [] => True
  | c :: cs => (c.isMutation = true → d.Room 1) ∧ (d.run c).2.Ample cs

instance decidableAmple (d : Device) : (cs : List Command) → Decidable (d.Ample cs)
  | [] => .isTrue trivial
  | c :: cs =>
    have := decidableAmple (d.run c).2 cs
    inferInstanceAs (Decidable ((c.isMutation = true → d.Room 1) ∧ (d.run c).2.Ample cs))

/-- The records are as the alterations made in between leave them, and the faults stay. -/
theorem values_after (hdb : d.database? id = some db) (hroom : d.Ample cs) :
    ∃ new, (d.after cs).database? id = some new ∧ new.bare = db.bare ∧
      new.records.values = Alteration.applyAll (d.alterations id cs) db.records.values := by
  induction cs generalizing d db with
  | nil => exact ⟨db, hdb, rfl, rfl⟩
  | cons c cs ih =>
    obtain ⟨hfirst, hrest⟩ := hroom
    rcases database?_run_cases hdb c with ⟨hnone, hsame⟩ | ⟨a, ha, hasked, haltered⟩
    · obtain ⟨new, hnew, hbare, hvalues⟩ := ih hsame hrest
      refine ⟨new, hnew, hbare, ?_⟩
      rw [alterations, hnone]
      exact hvalues
    · obtain ⟨new, hnew, hbare, hvalues⟩ := ih haltered hrest
      have hroom := hfirst (isMutation_of_alteration? hasked)
      rw [values_altered hroom hdb hasked] at hvalues
      refine ⟨new, hnew, hbare.trans (bare_altered ..), ?_⟩
      rw [alterations, ha]
      exact hvalues

/-! ## Devices that differ in their slots -/

/-- Two databases with the same name, faults and records in the same order, whatever the slots. -/
def Database.Alike (x y : Database) : Prop := x.bare = y.bare ∧ x.records.values = y.records.values

/-- Two devices with databases alike. -/
structure Alike (d t : Device) : Prop where
  linked : d.linkBroken = t.linkBroken
  databases : ∀ id, Option.Rel Database.Alike (d.database? id) (t.database? id)

theorem alike_of_databases (hlinked : d.linkBroken = t.linkBroken)
    (hdatabases : d.databases = t.databases) : d.Alike t := by
  refine ⟨hlinked, fun id => ?_⟩
  have hsame : t.database? id = d.database? id := by rw [database?, database?, hdatabases]
  rw [hsame]
  cases d.database? id with
  | none => exact .none
  | some db => exact .some ⟨rfl, rfl⟩

/-- Two commands that ask one database of each device for the same alteration. -/
def AsksAlike (d t : Device) (c c' : Command) : Prop :=
  ∃ id db db' a, c.database? = some id ∧ c'.database? = some id ∧ d.database? id = some db ∧
    t.database? id = some db' ∧ c.alteration? db = some a ∧ c'.alteration? db' = some a

/-- Commands that, turn by turn, ask for the same alterations. -/
def AskAlike (d t : Device) : List Command → List Command → Prop
  | [], [] => True
  | c :: cs, c' :: cs' => d.AsksAlike t c c' ∧ (d.run c).2.AskAlike (t.run c').2 cs cs'
  | _, _ => False

theorem Database.Alike.takes {x y : Database} (h : x.Alike y) (a : Alteration) :
    x.Takes a ↔ y.Takes a := by
  have hwrite : x.writeRefusal = y.writeRefusal := refusal_of_bare (c := .clearDatabase 0) h.1
  have hgrowth : x.growthRefusal = y.growthRefusal :=
    refusal_of_bare (c := .addRecord 0 ⟨"", 0, 0, ⟨#[]⟩⟩) h.1
  have hids : x.uniqueIds = y.uniqueIds := congrArg (List.map Record.uniqueId) h.2
  cases a with
  | appended r => simp only [Takes, hgrowth, hids]
  | replaced | removed | cleared => simp only [Takes, hwrite]

theorem Alike.database (h : d.Alike t) {x y : Database} (hx : d.database? id = some x)
    (hy : t.database? id = some y) : x.Alike y := by
  have hrel := h.databases id
  rw [hx, hy] at hrel
  cases hrel with
  | some halike => exact halike

/-- Devices alike accept the same of what they are asked alike. -/
theorem Alike.alteration?_eq (h : d.Alike t) (hasked : d.AsksAlike t c c') (id : DatabaseId) :
    d.alteration? id c = t.alteration? id c' := by
  obtain ⟨asked, db, db', a, hid, hid', hdb, hdb', ha, ha'⟩ := hasked
  by_cases hsame : id = asked
  · subst hsame
    have haccepted : accepted (d.execute c).1 = true ↔ accepted (t.execute c').1 = true := by
      rw [accepted_iff hdb hid ha, accepted_iff hdb' hid' ha', h.linked,
        (h.database hdb hdb').takes]
    simp only [alteration?, hid, hid', haccepted, hdb, hdb', Option.bind_some, ha, ha']
  · have hne : some asked ≠ some id := fun he => hsame (Option.some.inj he).symm
    simp only [alteration?, hid, hid', hne, false_and, if_false]

/-- Devices alike stay alike when they make the same alterations. -/
theorem Alike.run (h : d.Alike t) (hsame : ∀ id, d.alteration? id c = t.alteration? id c')
    (hd : d.Room 1) (ht : t.Room 1) : (d.run c).2.Alike (t.run c').2 := by
  refine ⟨by rw [linkBroken_run, linkBroken_run, h.linked], fun id => ?_⟩
  cases ha : d.alteration? id c with
  | none =>
    rw [database?_run_of_none ha, database?_run_of_none ((hsame id).symm.trans ha)]
    exact h.databases id
  | some a =>
    obtain ⟨db, hdb, hasked, haltered⟩ := database?_run_of_some ha
    obtain ⟨db', hdb', hasked', haltered'⟩ := database?_run_of_some ((hsame id).symm.trans ha)
    have halike := h.database hdb hdb'
    rw [haltered, haltered']
    refine .some ⟨?_, ?_⟩
    · rw [bare_altered, bare_altered, halike.1]
    · rw [values_altered hd hdb hasked, values_altered ht hdb' hasked', halike.2]

/-- Devices alike, asked alike turn by turn, make the same alterations and stay alike. -/
theorem Alike.after (h : d.Alike t) (hasked : d.AskAlike t cs cs') (hd : d.Ample cs)
    (ht : t.Ample cs') :
    (d.after cs).Alike (t.after cs') ∧ ∀ id, d.alterations id cs = t.alterations id cs' := by
  induction cs generalizing d t cs' with
  | nil =>
    cases cs' with
    | nil => exact ⟨h, fun _ => rfl⟩
    | cons => cases hasked
  | cons c cs ih =>
    cases cs' with
    | nil => cases hasked
    | cons c' cs' =>
      obtain ⟨hfirst, hrest⟩ := hasked
      have ⟨id, db, db', a, _, _, _, _, ha, ha'⟩ := hfirst
      have hfirst := h.alteration?_eq hfirst
      have hstep := h.run hfirst (hd.1 (isMutation_of_alteration? ha))
        (ht.1 (isMutation_of_alteration? ha'))
      obtain ⟨hafter, hsame⟩ := ih hstep hrest hd.2 ht.2
      refine ⟨hafter, fun id => ?_⟩
      rw [alterations, alterations, hfirst id, hsame id]

end commands

end Device

end Palmtop
