import Palmtop.Proofs.Device.GivingUp

/-! # Faults of one database and the others

A device is *afflicted* when faults are switched on for some of its databases.  `Isolated` compares
what becomes of it with what becomes of the same device without these faults, when the databases of
another device are put into both: where no record was refused there is no difference, and where one
was, the records up to it are taken as usual and nothing is heard of the database from then on.
-/
namespace Palmtop.Device

/-- The faults to be switched on for a database. -/
structure Ailment where
  readOnly : Bool := false
  failing : Bool := false
  failingAdds : Bool := false
  refusingSlotTable : Bool := false
  deriving DecidableEq

/-- The database with these faults and no others. -/
def Database.afflict (a : Ailment) (db : Database) : Database :=
  { db with
    readOnly := a.readOnly
    failing := a.failing
    failingAdds := a.failingAdds
    refusingSlotTable := a.refusingSlotTable }

/-- The device whose databases have these faults and no others, by name. -/
def afflict (faults : String → Ailment) (d : Device) : Device :=
  { d with databases := d.databases.map fun db => db.afflict (faults db.name) }

variable {mode : WriteMode} {faults : String → Ailment} {s d d' usual : Device} {n : Nat}
  {name : String} {db : Database}

/-! ## A device with faults -/

/-- Without faults, a database is what it was. -/
theorem Database.Willing.afflict (hw : db.Willing) : db.afflict {} = db := by
  obtain ⟨h₁, h₂, h₃, h₄⟩ := hw
  cases db
  simp_all [Database.afflict]

@[simp] theorem names_afflict (faults : String → Ailment) (d : Device) :
    (d.afflict faults).databases.map (·.name) = d.databases.map (·.name) := by
  rw [afflict, List.map_map]
  rfl

theorem named?_afflict (faults : String → Ailment) (d : Device) (name : String) :
    (d.afflict faults).named? name = (d.named? name).map (·.afflict (faults name)) := by
  rw [named?, named?, afflict, List.find?_map]
  cases h : d.databases.find? (·.name == name) with
  | none => exact congrArg (Option.map _) h
  | some db =>
    have hname : db.name = name := (named?_mem h).2
    exact (congrArg (Option.map _) h).trans (by rw [Option.map_some, Option.map_some, hname])

theorem contents_afflict (faults : String → Ailment) (d : Device) (name : String) :
    (d.afflict faults).contents name = d.contents name := by
  rw [contents, contents, named?_afflict]
  cases d.named? name <;> rfl

@[simp] theorem lock_afflict (faults : String → Ailment) (d : Device) :
    (d.afflict faults).lock = d.lock := rfl

theorem concerns_afflict (faults : String → Ailment) (d : Device) :
    (d.afflict faults).Concerns = d.Concerns :=
  concerns_congr (nameOf?_congr (names_afflict faults d))

/-- Faults take no room. -/
theorem Sound.afflict (h : d.Sound n) (faults : String → Ailment) :
    (d.afflict faults).Sound n := by
  have hdatabases : ∀ x ∈ (d.afflict faults).databases, ∃ db ∈ d.databases,
      x = db.afflict (faults db.name) := fun x hx => by
    obtain ⟨db, hdb, rfl⟩ := List.mem_map.mp hx
    exact ⟨db, hdb, rfl⟩
  refine ⟨⟨names_afflict faults d ▸ h.proper.names, ?_, fun x hx => ?_, fun x hx => ?_⟩, h.linked,
    ⟨h.room.few, fun x hx => ?_, fun hren x hx => ?_⟩⟩
  · rw [Device.afflict, List.length_map]
    exact h.proper.addressable
  all_goals obtain ⟨db, hdb, rfl⟩ := hdatabases x hx
  · exact h.proper.uniqueIds db hdb
  · exact h.proper.owned db hdb
  · exact h.room.slots db hdb
  · exact h.room.base hren db hdb

/-! ## With faults and without -/

/-- The databases of `s` are put into `d`, which comes to be `usual`, and into the same device with
faults, which comes to be `d'` and has some databases given up. -/
structure Isolated (mode : WriteMode) (s d : Device) (faults : String → Ailment)
    (d' usual : Device) (given : List (String × Error)) : Prop where
  /-- Each is given up once, in the order of the source. -/
  order : (given.map (·.1)).Sublist (s.databases.map (·.name))
  once : (given.map (·.1)).Nodup
  /-- A database without faults has no part in the faults of the others. -/
  spared : ∀ name, faults name = {} → d'.contents name = usual.contents name
  whole : ∀ name ∉ given.map (·.1), d'.contents name = usual.contents name
  /-- What is given up took the records up to the one that was refused. -/
  brokenOff : ∀ p ∈ given, ∃ db taken r rest, d.named? p.1 = some db ∧
    s.contents p.1 = taken ++ r :: rest ∧
    Database.BreaksOff mode db (db.afflict (faults p.1)) taken r p.2 (d'.contents p.1)
  /-- Nothing was refused but for the databases given up, and these were left alone from then on. -/
  told : ∃ news, d'.transcript = news ++ d.transcript ∧ d.GaveUp (given.map (·.1)) news

/-- A database that is not there does not appear. -/
theorem TakenOver.contents_missing {dbs : List Database} (h : TakenOver mode dbs d d')
    (hname : d.named? name = none) : d'.contents name = [] := by
  rw [named?_eq_none_iff, ← h.names, ← named?_eq_none_iff] at hname
  exact contents_of_not_named hname

/-- A database in which no record is refused becomes what it becomes without its faults. -/
theorem TakenOver.contents_eq (h : TakenOver mode s.databases (d.afflict faults) d')
    (hu : TakenOver mode s.databases d usual) (hw : ∀ db, d.named? name = some db → db.Willing)
    (hname : name ∉ ((d.afflict faults).refusals mode s.databases).map (·.1)) :
    d'.contents name = usual.contents name := by
  by_cases hin : name ∈ s.databases.map (·.name)
  · obtain ⟨a, ha, rfl⟩ := List.mem_map.mp hin
    have hafflicted := named?_afflict faults d a.name
    cases hdb : d.named? a.name with
    | none =>
      rw [hdb] at hafflicted
      rw [h.contents_missing hafflicted, hu.contents_missing hdb]
    | some db =>
      rw [hdb] at hafflicted
      have htaken : ((db.afflict (faults a.name)).takeAll mode { records := db.records.values }
          a.records.values).1 = none := by
        rw [Option.eq_none_iff_forall_ne_some]
        exact fun e he => hname (List.mem_map_of_mem
          (mem_refusals_iff.mpr ⟨a, ha, rfl, _, hafflicted, he⟩ : (a.name, e) ∈ _))
      have husual := Database.takeAll_usual (hw db hdb) (Prod.ext htaken rfl)
      exact (h.contents a ha _ hafflicted).trans
        ((congrArg (·.2.records) husual).symm.trans (hu.contents a ha db hdb).symm)
  · rw [Device.contents, h.untouched name hin, Device.contents, hu.untouched name hin]
    exact contents_afflict faults d name

/-- **Isolation.**  Faults of some databases make no difference to the others. -/
theorem TakenOver.isolated (h : TakenOver mode s.databases (d.afflict faults) d')
    (hu : TakenOver mode s.databases d usual) (hs : s.Proper) (hd : d.Ready n) :
    Isolated mode s d faults d' usual ((d.afflict faults).refusals mode s.databases) where
  order := names_refusals_sublist _ mode s.databases
  once := hs.names.sublist (names_refusals_sublist _ mode s.databases)
  whole name hname := h.contents_eq hu (fun _ => hd.willing_database) hname
  spared name hname := by
    refine h.contents_eq hu (fun _ => hd.willing_database) fun hm => ?_
    obtain ⟨⟨_, e⟩, hp, rfl⟩ := List.mem_map.mp hm
    obtain ⟨a, ha, rfl, x, hx, he⟩ := mem_refusals_iff.mp hp
    rw [named?_afflict, hname] at hx
    obtain ⟨db, hdb, rfl⟩ := Option.map_eq_some_iff.mp hx
    -- without faults, records of different ids are all taken
    have hw := hd.willing_database hdb
    rw [hw.afflict, hw.takeAll (hs.uniqueIds a ha) ?_] at he
    · cases he
    · rintro rfl r -
      simp [Page.uniqueIds, Page.opening]
  brokenOff p hp := by
    obtain ⟨_, e⟩ := p
    obtain ⟨a, ha, rfl, x, hx, he⟩ := mem_refusals_iff.mp hp
    have hcontents := h.contents a ha x hx
    rw [named?_afflict] at hx
    obtain ⟨db, hdb, rfl⟩ := Option.map_eq_some_iff.mp hx
    have hsource : s.contents a.name = a.records.values :=
      contents_of_named? (hs.named?_eq_some_iff.mpr ⟨ha, rfl⟩)
    have hsize : a.records.values.length ≤ UInt32.size :=
      Slots.length_values a.records ▸ a.records.size_le
    obtain ⟨taken, r, rest, hrecords, hbreaks⟩ :=
      (hd.willing_database hdb).breaksOff hsize (hs.uniqueIds a ha) (Prod.ext he rfl)
    exact ⟨db, taken, r, rest, hdb, hsource.trans hrecords, hcontents ▸ hbreaks⟩
  told := by
    obtain ⟨news, hnews, -, hgaveUp⟩ := h.told
    simp only [GaveUp, BrokenOff, Untroubled, concerns_afflict] at hgaveUp
    exact ⟨news, hnews, hgaveUp⟩

end Palmtop.Device
