import Palmtop.Proofs.Device.Accepting

/-! # Restores that are run again

What a writer leaves behind when any of its commands are refused on their way to the device
(`sessionWith`).  Seen as a map from ids (`Device.record?`), a database changes with each record put
into it in one of three ways: the record is taken, the database is emptied, or it stays as it was
(`Writer.put_step`).

So a run that is broken off leaves every id with the record it had, or with one of those put under
it, and what it has added the faults of the device let it add (`Writer.Partly`).  A run of which
nothing is refused then makes of this what it would have made of the device that was there in the
beginning, which would not have refused anything either (`Writer.resumed`).
-/
namespace Palmtop.Device

variable {d d' after : Device} {n : Nat} {id : DatabaseId} {db new : Database} {name other : String}
  {c : Command} {slot : Slot} {r : Record}

/-! ## Refusals on the way -/

/-- What is refused on the way to a device, which may depend on all that was said to it before. -/
abbrev Refusals := Command → Device → Option Error

/-- The session on which some of the commands are refused.  The device does not get to do them, but
they are in the transcript. -/
def sessionWith (refusals : Refusals) : Session Device where
  run c d :=
    match refusals c d with
    | some e => (.error e, d.logged ⟨c, false⟩)
    | none => d.run c

/-- What was accepted the device has answered. -/
theorem run_of_accepted {refusals : Refusals} {a : c.Answer}
    (h : (sessionWith refusals).run c d = (.ok a, d')) : session.run c d = (.ok a, d') := by
  simp only [sessionWith] at h
  split at h
  · cases h
  · exact h

/-- A refused command changes nothing, whoever has refused it. -/
theorem observed_of_refused {refusals : Refusals} {e : Error}
    (h : (sessionWith refusals).run c d = (.error e, d')) : d.Observed d' := by
  simp only [sessionWith] at h
  split at h
  · obtain ⟨-, rfl⟩ := Prod.mk.inj h
    exact (observed_self d).logged _
  · rw [run_eq] at h
    obtain ⟨hanswer, hafter⟩ := Prod.mk.inj h
    have hrefused : d.execute c = (.error e, (d.execute c).2) := Prod.ext hanswer rfl
    rw [execute_refused hrefused] at hafter
    exact hafter ▸ (observed_self d).logged _

/-- A command that mutates nothing only shows in the transcript. -/
theorem observed_of_not_isMutation {refusals : Refusals} {answer : Except Error c.Answer}
    (hc : c.isMutation = false) (h : (sessionWith refusals).run c d = (answer, d')) :
    d.Observed d' := by
  simp only [sessionWith] at h
  split at h
  · obtain ⟨-, rfl⟩ := Prod.mk.inj h
    exact (observed_self d).logged _
  · rw [run_eq, execute_of_not_isMutation hc] at h
    obtain ⟨-, rfl⟩ := Prod.mk.inj h
    exact (observed_self d).logged _

/-! ### What a sound device has accepted -/

theorem Sound.databaseId_accepted (h : d.Sound n)
    (hrun : session.run (.databaseId name) d = (.ok id, d')) :
    ∃ db, d.database? id = some db ∧ db.name = name ∧ d.Observed d' := by
  cases hdb : d.named? name with
  | none =>
    obtain ⟨e, hmissing⟩ := h.databaseId_missing hdb
    cases hrun.symm.trans hmissing
  | some db =>
    obtain ⟨i, e, hid, hat⟩ := h.databaseId hdb
    obtain ⟨hi, rfl⟩ := Prod.mk.inj (hrun.symm.trans hid)
    rw [Except.ok.inj hi]
    exact ⟨db, hat, (named?_mem hdb).2, (observed_self d).logged e⟩

/-- What was accepted no fault has refused. -/
theorem Sound.refusal_of_accepted {a : c.Answer} (h : d.Sound n) (hdb : d.database? id = some db)
    (hc : c.database? = some id) (hrun : session.run c d = (.ok a, d')) : db.refusal c = none := by
  cases hrefusal : db.refusal c with
  | none => rfl
  | some e =>
    obtain ⟨x, hrefused, -⟩ := h.refused hdb hc hrefusal
    cases hrun.symm.trans hrefused

theorem Sound.slotTable_accepted {table : SlotTable} (h : d.Sound n)
    (hdb : d.database? id = some db) (hrun : session.run (.slotTable id) d = (.ok table, d')) :
    table = db.table ∧ d.Observed d' := by
  obtain ⟨e, htable⟩ := h.slotTable hdb (h.refusal_of_accepted hdb rfl hrun)
  obtain ⟨ht, rfl⟩ := Prod.mk.inj (hrun.symm.trans htable)
  exact ⟨Except.ok.inj ht, (observed_self d).logged e⟩

theorem Sound.clearDatabase_accepted (h : d.Sound n) (hdb : d.database? id = some db)
    (hrun : session.run (.clearDatabase id) d = (.ok (), d')) :
    d'.Sound n ∧ d.Changed d' id db { db with records := Slots.empty } := by
  obtain ⟨x, hclear, hsound, hchanged⟩ := h.clearDatabase hdb (h.refusal_of_accepted hdb rfl hrun)
  obtain ⟨-, rfl⟩ := Prod.mk.inj (hrun.symm.trans hclear)
  exact ⟨hsound, hchanged⟩

theorem Sound.writeRecord_accepted {old : Record} (h : d.Sound (n + 1))
    (hdb : d.database? id = some db) (hs : db.records.get? slot = some old)
    (hid : old.uniqueId = r.uniqueId) (hr : r.database = db.name)
    (hrun : session.run (.writeRecord id slot r) d = (.ok (), d')) :
    d'.Sound n ∧ ∃ new, d.Changed d' id db new ∧ new.records.values
      = db.records.values.map fun x => if x.uniqueId = r.uniqueId then r else x := by
  obtain ⟨x, new, hwrite, hsound, hchanged, hvalues⟩ :=
    h.writeRecord hdb (h.refusal_of_accepted hdb rfl hrun) hs hid hr
  obtain ⟨-, rfl⟩ := Prod.mk.inj (hrun.symm.trans hwrite)
  exact ⟨hsound, new, hchanged, hvalues⟩

theorem Sound.addRecord_accepted (h : d.Sound (n + 1)) (hdb : d.database? id = some db)
    (hr : r.database = db.name) (hrun : session.run (.addRecord id r) d = (.ok (), d')) :
    r.uniqueId ∉ db.uniqueIds ∧ d'.Sound n ∧
      ∃ new, d.Changed d' id db new ∧ new.records.values = db.records.values ++ [r] := by
  have hgrowth := h.refusal_of_accepted hdb rfl hrun
  have hnew : r.uniqueId ∉ db.uniqueIds := fun hmem => by
    obtain ⟨e, hduplicate⟩ := h.addRecord_duplicate hdb hgrowth hmem
    cases hrun.symm.trans hduplicate
  obtain ⟨x, new, hadd, hsound, hchanged, hvalues⟩ := h.addRecord hdb hgrowth hnew hr
  obtain ⟨-, rfl⟩ := Prod.mk.inj (hrun.symm.trans hadd)
  exact ⟨hnew, hsound, new, hchanged, hvalues⟩

/-! ## Databases as maps from ids -/

/-- The record with this id in the database of this name. -/
def record? (d : Device) (name : String) (id : UniqueId) : Option Record :=
  (d.contents name).find? (·.uniqueId == id)

theorem Observed.record? (h : d.Observed d') : d'.record? = d.record? := by
  obtain ⟨_, rfl⟩ := h
  rfl

theorem Leaves.record? (h : d.Leaves d' name) (hne : other ≠ name) :
    d'.record? other = d.record? other := by
  funext u
  rw [Device.record?, Device.record?, Device.contents, Device.contents, h.named? other hne]

theorem record?_of_database? (h : d.Sound n) (hdb : d.database? id = some db) (u : UniqueId) :
    d.record? db.name u = db.records.values.find? (·.uniqueId == u) := by
  rw [Device.record?, contents_of_named? (h.proper.named?_of_database? hdb)]

theorem Changed.record? (h : d.Changed after id db new) (u : UniqueId) :
    after.record? db.name u = new.records.values.find? (·.uniqueId == u) := by
  rw [Device.record?, h.contents, if_pos rfl]

theorem find?_eq_none_iff {l : List Record} {u : UniqueId} :
    l.find? (·.uniqueId == u) = none ↔ u ∉ l.map (·.uniqueId) := by
  rw [List.find?_eq_none, List.mem_map]
  refine ⟨?_, fun h x hx hid => h ⟨x, hx, eq_of_beq hid⟩⟩
  rintro h ⟨x, hx, rfl⟩
  exact h x hx (beq_self_eq_true _)

theorem record?_eq_none_iff {u : UniqueId} :
    d.record? name u = none ↔ u ∉ (d.contents name).map (·.uniqueId) := find?_eq_none_iff

/-- The database of this name is there, and its faults let it take new records. -/
def Grows (d : Device) (name : String) : Prop :=
  ∃ db, d.faults? name = some db ∧ db.growthRefusal = none

/-- A record of a new id behind the others. -/
theorem find?_append_new {l : List Record} (h : r.uniqueId ∉ l.map (·.uniqueId)) (u : UniqueId) :
    (l ++ [r]).find? (·.uniqueId == u)
      = Function.update (fun u => l.find? (·.uniqueId == u)) r.uniqueId (some r) u := by
  rw [List.find?_append]
  by_cases hu : u = r.uniqueId
  · subst hu
    simp [find?_eq_none_iff.mpr h]
  · simp [hu, Ne.symm hu]

/-- A record over the one of its id. -/
theorem find?_overwriting {l : List Record} (h : r.uniqueId ∈ l.map (·.uniqueId)) (u : UniqueId) :
    (l.map fun x => if x.uniqueId = r.uniqueId then r else x).find? (·.uniqueId == u)
      = Function.update (fun u => l.find? (·.uniqueId == u)) r.uniqueId (some r) u := by
  have hid (x : Record) : (if x.uniqueId = r.uniqueId then r else x).uniqueId = x.uniqueId := by
    split
    · rename_i hx
      exact hx.symm
    · rfl
  have hfind : (l.map fun x => if x.uniqueId = r.uniqueId then r else x).find? (·.uniqueId == u)
      = (l.find? (·.uniqueId == u)).map fun x => if x.uniqueId = r.uniqueId then r else x := by
    rw [List.find?_map]
    exact congrArg (Option.map _) (congrArg (List.find? · l) (funext fun x => by simp [hid]))
  rw [hfind]
  by_cases hu : u = r.uniqueId
  · subst hu
    obtain ⟨x, hx, hxid⟩ := List.mem_map.mp h
    cases hl : l.find? (·.uniqueId == r.uniqueId) with
    | none => exact absurd hxid (by simpa using List.find?_eq_none.mp hl x hx)
    | some y =>
      have hy : y.uniqueId = r.uniqueId := by simpa using List.find?_some hl
      simp [hy]
  · rw [Function.update_of_ne hu]
    cases hl : l.find? (·.uniqueId == u) with
    | none => rfl
    | some y =>
      have hy : y.uniqueId = u := by simpa using List.find?_some hl
      simp [hy, hu]

/-! ## One record -/

namespace Writer

variable {w w' : Writer} {t : Target} {refusals : Refusals} {mode : WriteMode} {rs : List Record}

/-- What the writer remembers is true of the device. -/
def Remembers (w : Writer) (d : Device) : Prop :=
  ∀ name t, w.target? name = some t → ∃ db, d.database? t.id = some db ∧ db.name = name ∧
    (t.stale = false → t.table.ids = db.table.ids)

theorem Remembers.observed (h : w.Remembers d) (hd : d.Observed d') : w.Remembers d' := by
  intro name t ht
  rw [hd.database?]
  exact h name t ht

/-- One database changes, and the writer remembers it anew. -/
theorem Remembers.setTarget (h : w.Remembers d) (hd : d.Leaves d' name)
    (hdb : d'.database? t.id = some db) (hname : db.name = name)
    (hids : t.stale = false → t.table.ids = db.table.ids) : (w.setTarget name t).Remembers d' := by
  intro other u hu
  rw [target?_setTarget] at hu
  split at hu
  · rename_i he
    obtain rfl := Option.some.inj hu
    exact ⟨db, hdb, hname.trans he.symm, hids⟩
  · rename_i hne
    obtain ⟨x, hx, hxn, hxids⟩ := h other u hu
    exact ⟨x, hd.database? _ x hx (hxn ▸ hne), hxn, hxids⟩

/-- What is left of a database when the first record of it arrives. -/
def opening (mode : WriteMode) (opened : Bool) (records : UniqueId → Option Record) :
    UniqueId → Option Record :=
  if mode = .eraseAll ∧ opened = false then fun _ => none else records

/-- What a mode makes of a database when it takes a record that keeps its id. -/
def take (mode : WriteMode) (r : Record) (records : UniqueId → Option Record) :
    UniqueId → Option Record :=
  if mode = .addOnly ∧ (records r.uniqueId).isSome then records
  else Function.update records r.uniqueId (some r)

/-- What reaching a database leads to: it is opened, and the writer remembers it. -/
structure Opened (w : Writer) (d : Device) (n : Nat) (name : String) (t : Target) (w' : Writer)
    (d' : Device) : Prop extends Touches w d n name w' d' where
  remembers : w'.Remembers d'
  target : w'.target? name = some t
  records : d'.record? name = opening w.mode (w.target? name).isSome (d.record? name)
  /-- A table that is stale was fetched for a record before. -/
  reopened : t.stale = true → w' = w ∧ d' = d

theorem opening_of_opened (records : UniqueId → Option Record) :
    opening mode true records = records := by
  simp [opening]

theorem opening_of_keeping (h : mode ≠ .eraseAll) (opened : Bool)
    (records : UniqueId → Option Record) : opening mode opened records = records := by
  simp [opening, h]

/-- Opening a database brings no records. -/
theorem opening_eq_none {records : UniqueId → Option Record} {u : UniqueId}
    (h : records u = none) (mode : WriteMode) (opened : Bool) :
    opening mode opened records u = none := by
  unfold opening
  split
  · rfl
  · exact h

theorem reach_step {answer : Except Error Target} (hd : d.Sound n) (hw : w.Remembers d)
    (hrun : w.reach (sessionWith refusals) name d = (answer, w', d')) :
    (∃ e, answer = .error e) ∧ w' = w ∧ d.Observed d' ∨
      ∃ t, answer = .ok t ∧ Opened w d n name t w' d' := by
  unfold reach at hrun
  split at hrun
  · rename_i t htarget
    cases hrun
    refine Or.inr ⟨t, rfl, ⟨hd, rfl, (observed_self d).leaves _, fun _ _ => rfl⟩, hw, htarget, ?_,
      fun _ => ⟨rfl, rfl⟩⟩
    rw [htarget, Option.isSome_some, opening_of_opened]
  rename_i htarget
  split at hrun
  · rename_i hid
    cases hrun
    exact Or.inl ⟨⟨_, rfl⟩, rfl, observed_of_refused hid⟩
  rename_i hid
  obtain ⟨db, hdb, rfl, hseen⟩ := hd.databaseId_accepted (run_of_accepted hid)
  have hd₁ := hseen.sound hd
  rw [← hseen.database?] at hdb
  have hw₁ := hw.observed hseen
  split at hrun
  · rename_i herase
    split at hrun
    · rename_i hclear
      cases hrun
      exact Or.inl ⟨⟨_, rfl⟩, rfl, hseen.trans (observed_of_refused hclear)⟩
    · rename_i hclear
      cases hrun
      obtain ⟨hsound, hchanged⟩ := hd₁.clearDatabase_accepted hdb (run_of_accepted hclear)
      have hleaves := hchanged.leaves hd₁.proper
      refine Or.inr ⟨_, rfl, touches_setTarget ((hseen.leaves _).trans hleaves) hsound _,
        hw₁.setTarget hleaves hchanged.database?_self rfl fun _ => rfl, ?_, ?_, nofun⟩
      · rw [target?_setTarget, if_pos rfl]
      · funext u
        rw [hchanged.record?, htarget, opening, if_pos ⟨herase, rfl⟩]
        rfl
  · rename_i hkeeps
    split at hrun
    · rename_i htable
      cases hrun
      exact Or.inl ⟨⟨_, rfl⟩, rfl, hseen.trans (observed_of_refused htable)⟩
    · rename_i htable
      cases hrun
      obtain ⟨rfl, hseen'⟩ := hd₁.slotTable_accepted hdb (run_of_accepted htable)
      have hall := hseen.trans hseen'
      have hdb' := hdb
      rw [← hseen'.database?] at hdb'
      refine Or.inr ⟨_, rfl, touches_setTarget (hall.leaves _) (hall.sound hd) _,
        hw₁.setTarget (hseen'.leaves _) hdb' rfl fun _ => rfl, ?_, ?_, nofun⟩
      · rw [target?_setTarget, if_pos rfl]
      · rw [hall.record?, opening_of_keeping hkeeps]

theorem freshTarget_step {answer : Except Error Target} (hd : d.Sound n) (hw : w.Remembers d)
    (hrun : w.freshTarget (sessionWith refusals) name d = (answer, w', d')) :
    (∃ e, answer = .error e) ∧ w' = w ∧ d.Observed d' ∨
      ∃ t, answer = .ok t ∧ t.stale = false ∧ Opened w d n name t w' d' := by
  unfold freshTarget at hrun
  split at hrun
  · rename_i hreach
    cases hrun
    exact Or.inl ((reach_step hd hw hreach).resolve_right nofun)
  rename_i t w₁ d₁ hreach
  obtain ⟨_, ht, hopened⟩ := (reach_step hd hw hreach).resolve_left nofun
  obtain rfl := Except.ok.inj ht
  split at hrun
  · rename_i hstale
    obtain ⟨rfl, rfl⟩ := hopened.reopened hstale
    split at hrun
    · rename_i htable
      cases hrun
      exact Or.inl ⟨⟨_, rfl⟩, rfl, observed_of_refused htable⟩
    · rename_i htable
      cases hrun
      obtain ⟨db, hdb, rfl, -⟩ := hw name t hopened.target
      obtain ⟨rfl, hseen⟩ := hd.slotTable_accepted hdb (run_of_accepted htable)
      rw [← hseen.database?] at hdb
      refine Or.inr ⟨_, rfl, rfl, touches_setTarget (hseen.leaves _) (hseen.sound hd) _,
        hw.setTarget (hseen.leaves _) hdb rfl fun _ => rfl, ?_, ?_, nofun⟩
      · rw [target?_setTarget, if_pos rfl]
      · rw [hseen.record?]
        exact hopened.records
  · rename_i hfresh
    cases hrun
    exact Or.inr ⟨t, rfl, eq_false_of_ne_true hfresh, hopened⟩

/-- What putting a record leads to. -/
structure Fed (w : Writer) (d : Device) (n : Nat) (r : Record) (answer : Except Error Unit)
    (w' : Writer) (d' : Device) : Prop extends Touches w d n r.database w' d' where
  remembers : w'.Remembers d'
  taken : answer = .ok () → (w'.target? r.database).isSome = true ∧ d'.record? r.database
    = take w.mode r (opening w.mode (w.target? r.database).isSome (d.record? r.database))
  /-- A record of a new id is only taken where new ones are. -/
  added : answer = .ok () → d.record? r.database r.uniqueId = none → d.Grows r.database
  refused : ∀ e, answer = .error e → d'.record? r.database = d.record? r.database ∨
    d'.record? r.database
      = opening w.mode (w.target? r.database).isSome (d.record? r.database)

section opened

variable {w₁ : Writer} {d₁ d₂ : Device}

/-- The database that was reached, with the table that is true of it. -/
theorem Opened.database (ho : Opened w d n name t w₁ d₁) : ∃ db, d₁.database? t.id = some db ∧
    db.name = name ∧ (t.stale = false → t.table.ids = db.table.ids) ∧
    ∀ u, opening w.mode (w.target? name).isSome (d.record? name) u
      = db.records.values.find? (·.uniqueId == u) := by
  obtain ⟨db, hdb, rfl, hids⟩ := ho.remembers name t ho.target
  refine ⟨db, hdb, rfl, hids, fun u => ?_⟩
  rw [← ho.records, record?_of_database? ho.sound hdb]

/-- What was refused leaves the database as it was when it was opened. -/
theorem Opened.refused {e : Error} (ho : Opened w d (n + 1) r.database t w₁ d₁)
    (hseen : d₁.Observed d₂) :
    Fed w d n r (.error e) (w₁.setTarget r.database { t with stale := true }) d₂ := by
  obtain ⟨db, hdb, hname, -⟩ := ho.database
  have hsound := (hseen.sound ho.sound).mono (Nat.le_succ n)
  rw [← hseen.database?] at hdb
  refine ⟨ho.toTouches.trans (touches_setTarget (hseen.leaves _) hsound _),
    ho.remembers.setTarget (hseen.leaves _) hdb hname nofun, nofun, nofun, fun _ _ => Or.inr ?_⟩
  rw [hseen.record?, ho.records]

/-- A mutation that does what the mode says. -/
theorem Opened.taken (ho : Opened w d (n + 1) r.database t w₁ d₁)
    (hc : d₁.Changed d₂ t.id db new) (hname : db.name = r.database) (hsound : d₂.Sound n)
    (hrecords : ∀ u, new.records.values.find? (·.uniqueId == u)
      = take w.mode r (opening w.mode (w.target? r.database).isSome (d.record? r.database)) u)
    (hadded : d.record? r.database r.uniqueId = none → db.growthRefusal = none) :
    Fed w d n r (.ok ()) (w₁.setTarget r.database { t with stale := true }) d₂ := by
  have hleaves : d₁.Leaves d₂ r.database := hname ▸ hc.leaves ho.sound.proper
  refine ⟨ho.toTouches.trans (touches_setTarget hleaves hsound _),
    ho.remembers.setTarget hleaves hc.database?_self (hc.name.trans hname) nofun,
    fun _ => ⟨?_, ?_⟩, fun _ hnone => ⟨db.bare, ?_, hadded hnone⟩, nofun⟩
  · rw [target?_setTarget, if_pos rfl]
    rfl
  · funext u
    rw [← hname, hc.record?, hrecords, hname]
  · rw [← ho.leaves.faults?, faults?, ← hname, ho.sound.proper.named?_of_database? hc.before,
      Option.map_some]

/-- The counts play no part. -/
theorem Fed.counted {answer : Except Error Unit} (h : Fed w d n r answer w' d')
    (written skipped : Nat) : Fed w d n r answer { w' with written, skipped } d' :=
  ⟨⟨h.sound, h.sameMode, h.leaves, h.targets⟩, h.remembers, h.taken, h.added, h.refused⟩

/-- The slot that the table names holds the record of the id. -/
theorem exists_of_slotOf? {u : UniqueId} (hids : t.table.ids = db.table.ids)
    (hslot : t.table.slotOf? u = some slot) :
    ∃ old, db.records.get? slot = some old ∧ old.uniqueId = u := by
  have hat := SlotTable.slotOf?_eq_some hslot
  rw [hids] at hat
  exact Slots.get?_map_eq_some hat

/-- A record whose id has a slot is left alone if records are only added. -/
theorem Opened.leaves_alone (ho : Opened w d (n + 1) r.database t w₁ d₁) (hfresh : t.stale = false)
    (hmode : w.mode = .addOnly) (hslot : t.table.slotOf? r.uniqueId = some slot) :
    Fed w d n r (.ok ()) w₁ d₁ := by
  obtain ⟨db, -, -, hids, hrecords⟩ := ho.database
  obtain ⟨old, hold, hid⟩ := exists_of_slotOf? (hids hfresh) hslot
  have hthere : (opening w.mode (w.target? r.database).isSome (d.record? r.database)
      r.uniqueId).isSome = true := by
    rw [hrecords, List.find?_isSome]
    exact ⟨old, Slots.mem_values_of_get? hold, beq_iff_eq.mpr hid⟩
  refine ⟨⟨ho.sound.mono (Nat.le_succ n), ho.sameMode, ho.leaves, ho.targets⟩, ho.remembers,
    fun _ => ⟨Option.isSome_iff_exists.mpr ⟨t, ho.target⟩, ?_⟩, fun _ hnone => ?_, nofun⟩
  · rw [ho.records, take, if_pos ⟨hmode, hthere⟩]
  · rw [opening_eq_none hnone] at hthere
    cases hthere

/-- A record whose id has a slot is written there. -/
theorem Opened.writes {answer : Except Error Unit} (ho : Opened w d (n + 1) r.database t w₁ d₁)
    (hfresh : t.stale = false) (hmode : w.mode ≠ .addOnly)
    (hslot : t.table.slotOf? r.uniqueId = some slot)
    (hput : (w₁.setTarget r.database { t with stale := true }).afterMutation
      ((sessionWith refusals).writeRecord t.id slot r d₁) = (answer, w', d')) :
    Fed w d n r answer w' d' := by
  obtain ⟨db, hdb, hname, hids, hrecords⟩ := ho.database
  obtain ⟨old, hold, hid⟩ := exists_of_slotOf? (hids hfresh) hslot
  rcases hrun : (sessionWith refusals).writeRecord t.id slot r d₁ with ⟨e | _, d₂⟩
  · rw [hrun] at hput
    cases hput
    exact ho.refused (observed_of_refused hrun)
  · rw [hrun] at hput
    cases hput
    obtain ⟨hsound, new, hchanged, hvalues⟩ :=
      ho.sound.writeRecord_accepted hdb hold hid hname.symm (run_of_accepted hrun)
    have hmem : r.uniqueId ∈ db.uniqueIds :=
      hid ▸ List.mem_map_of_mem (Slots.mem_values_of_get? hold)
    refine (ho.taken hchanged hname hsound (fun u => ?_) fun hnone => ?_).counted _ _
    · rw [hvalues, find?_overwriting hmem, take, if_neg fun h => hmode h.1]
      congr 1
      exact funext fun u => (hrecords u).symm
    · have hopened := opening_eq_none hnone w.mode (w.target? r.database).isSome
      rw [hrecords, find?_eq_none_iff] at hopened
      exact absurd hmem hopened

/-- A record is added if its id is new. -/
theorem Opened.adds {answer : Except Error Unit} (ho : Opened w d (n + 1) r.database t w₁ d₁)
    (hput : (w₁.setTarget r.database { t with stale := true }).afterMutation
      ((sessionWith refusals).addRecord t.id r d₁) = (answer, w', d')) :
    Fed w d n r answer w' d' := by
  obtain ⟨db, hdb, hname, -, hrecords⟩ := ho.database
  rcases hrun : (sessionWith refusals).addRecord t.id r d₁ with ⟨e | _, d₂⟩
  · rw [hrun] at hput
    cases hput
    exact ho.refused (observed_of_refused hrun)
  · rw [hrun] at hput
    cases hput
    have haccepted := run_of_accepted hrun
    obtain ⟨hnew, hsound, new, hchanged, hvalues⟩ :=
      ho.sound.addRecord_accepted hdb hname.symm haccepted
    refine (ho.taken hchanged hname hsound (fun u => ?_) fun _ =>
      ho.sound.refusal_of_accepted hdb rfl haccepted).counted _ _
    have hnone : db.records.values.find? (·.uniqueId == r.uniqueId) = none :=
      find?_eq_none_iff.mpr hnew
    rw [hvalues, find?_append_new hnew, take, if_neg (by simp [hrecords, hnone])]
    congr 1
    exact funext fun u => (hrecords u).symm

end opened

/-- One record is put into a database by a writer that keeps ids, whatever is refused. -/
theorem put_step {answer : Except Error Unit} (hmode : w.mode ≠ .addAsNew) (hd : d.Sound (n + 1))
    (hw : w.Remembers d) (hput : w.put (sessionWith refusals) r d = (answer, w', d')) :
    Fed w d n r answer w' d' := by
  unfold put at hput
  split at hput
  · rename_i hfresh
    cases hput
    obtain ⟨-, rfl, hseen⟩ := (freshTarget_step hd hw hfresh).resolve_right nofun
    exact ⟨⟨(hseen.sound hd).mono (Nat.le_succ n), rfl, hseen.leaves _, fun _ _ => rfl⟩,
      hw.observed hseen, nofun, nofun, fun _ _ => Or.inl (by rw [hseen.record?])⟩
  rename_i hrun
  obtain ⟨_, ht, hfresh, ho⟩ := (freshTarget_step hd hw hrun).resolve_left nofun
  obtain rfl := Except.ok.inj ht
  split at hput
  · rename_i honly hslot
    cases hput
    exact (ho.leaves_alone hfresh (ho.sameMode.symm.trans honly) hslot).counted _ _
  · rename_i hover hslot
    refine ho.writes hfresh (fun h => ?_) hslot hput
    rw [← ho.sameMode, hover] at h
    cases h
  · rename_i hnew
    exact absurd (ho.sameMode.symm.trans hnew) hmode
  · exact ho.adds hput

/-! ## A run that is broken off -/

/-- Records were put one after another, and some of them may have been refused: an id has the record
it had or one that was put under it.  What is only added takes no place, and what takes a new place
the faults let be added. -/
structure Partly (mode : WriteMode) (rs : List Record) (d d' : Device) : Prop where
  linked : d'.linkBroken = d.linkBroken
  faults : d'.faults? = d.faults?
  others : ∀ name, (∀ r ∈ rs, r.database ≠ name) → d'.record? name = d.record? name
  records : mode ≠ .eraseAll → ∀ name u, d'.record? name u = d.record? name u ∨
    (mode = .addOnly → d.record? name u = none) ∧ (d.record? name u = none → d.Grows name) ∧
      ∃ r ∈ rs, r.database = name ∧ r.uniqueId = u ∧ d'.record? name u = some r

theorem partly_of_observed (mode : WriteMode) (h : d.Observed d') (rs : List Record) :
    Partly mode rs d d' :=
  ⟨h.linkBroken, h.faults?, fun _ _ => by rw [h.record?],
    fun _ _ _ => Or.inl (by rw [h.record?])⟩

theorem Partly.trans {more : List Record} {d'' : Device} (h : Partly mode rs d d')
    (h' : Partly mode more d' d'') : Partly mode (rs ++ more) d d'' where
  linked := h'.linked.trans h.linked
  faults := h'.faults.trans h.faults
  others name hne := by
    obtain ⟨hrs, hmore⟩ := List.forall_mem_append.mp hne
    exact (h'.others name hmore).trans (h.others name hrs)
  records hmode name u := by
    have hgrows : d'.Grows name → d.Grows name := fun ⟨db, hdb, hgrowth⟩ =>
      ⟨db, h.faults ▸ hdb, hgrowth⟩
    rcases h'.records hmode name u with hsame | ⟨hadd, hadded, r, hr, hname, hid, hrecord⟩
    · rw [hsame]
      refine (h.records hmode name u).imp_right fun ⟨hadd, hadded, r, hr, hrest⟩ => ?_
      exact ⟨hadd, hadded, r, List.mem_append_left _ hr, hrest⟩
    · refine Or.inr ⟨fun honly => ?_, fun hnone => ?_, r, List.mem_append_right _ hr, hname, hid,
        hrecord⟩
      -- where there is a record now, there was one before or one was put
      · rcases h.records hmode name u with hsame | ⟨hbefore, -⟩
        · exact hsame ▸ hadd honly
        · exact hbefore honly
      · rcases h.records hmode name u with hsame | ⟨-, hbefore, -⟩
        · exact hgrows (hadded (hsame.trans hnone))
        · exact hbefore hnone

theorem Fed.partly {answer : Except Error Unit} (h : Fed w d n r answer w' d') :
    Partly w.mode [r] d d' where
  linked := h.leaves.linked
  faults := h.leaves.faults?
  others name hne := h.leaves.record? fun he => hne r (List.mem_singleton_self r) he.symm
  records hmode name u := by
    by_cases hname : name = r.database
    · subst hname
      cases answer with
      | error e =>
        refine Or.inl ?_
        rcases h.refused e rfl with hrecord | hrecord
        · rw [hrecord]
        · rw [hrecord, opening_of_keeping hmode]
      | ok =>
        obtain ⟨-, hrecord⟩ := h.taken rfl
        rw [hrecord, opening_of_keeping hmode, take]
        split
        · exact Or.inl rfl
        · rename_i honly
          by_cases hu : u = r.uniqueId
          · subst hu
            refine Or.inr ⟨fun hadd => ?_, h.added rfl, r, List.mem_singleton_self r, rfl, rfl,
              Function.update_self ..⟩
            simpa [hadd] using honly
          · exact Or.inl (Function.update_of_ne hu ..)
    · exact Or.inl (by rw [h.leaves.record? hname])

theorem mem_uniqueIds_opening {u : UniqueId} :
    u ∈ (Page.opening mode { records := d.contents name }).uniqueIds ↔
      mode ≠ .eraseAll ∧ d.record? name u ≠ none := by
  by_cases herase : mode = .eraseAll
  · simp [Page.opening, Page.uniqueIds, herase]
  · rw [Page.opening_of_keeping herase, Page.uniqueIds, Ne, Ne, record?_eq_none_iff, not_not]
    exact (and_iff_right herase).symm

/-- The databases hold what they held, or more if their faults let them take new records. -/
theorem Partly.grown (h : Partly mode rs d d') {db : Database} (hdb : d.faults? name = some db) :
    db.Grown mode { records := d.contents name } { records := d'.contents name } := by
  refine ⟨rfl, fun u hu => ?_, fun u hu hnew => ?_⟩
  · rw [mem_uniqueIds_opening] at hu ⊢
    obtain ⟨hmode, hthere⟩ := hu
    refine ⟨hmode, ?_⟩
    rcases h.records hmode name u with hsame | ⟨-, -, r, -, -, -, hrecord⟩
    · rwa [hsame]
    · rw [hrecord]
      exact Option.some_ne_none r
  · rw [mem_uniqueIds_opening] at hu hnew
    obtain ⟨hmode, hthere⟩ := hu
    have hnone : d.record? name u = none := by
      by_contra hsome
      exact hnew ⟨hmode, hsome⟩
    rcases h.records hmode name u with hsame | ⟨-, hadded, -⟩
    · exact absurd (hsame.trans hnone) hthere
    · obtain ⟨x, hx, hgrowth⟩ := hadded hnone
      rwa [Option.some.inj (hdb.symm.trans hx)]

/-- What is taken where a run was broken off would have been taken without it. -/
theorem Partly.admits {more : List Record} (h : Partly mode rs d d') (keeping : mode ≠ .addAsNew)
    (hall : d'.Admits mode (fun name => { records := d'.contents name }) more) :
    d.Admits mode (fun name => { records := d.contents name }) more := by
  intro name hne
  obtain ⟨db, hdb, htaken⟩ := hall name hne
  rw [h.faults] at hdb
  exact ⟨db, hdb, (h.grown hdb).takeAll keeping htaken⟩

theorem putAll_partly (hmode : w.mode ≠ .addAsNew) (hd : d.Sound (n + rs.length))
    (hw : w.Remembers d) :
    let d' := ((consumer (sessionWith refusals)).putAll rs (w, d)).2.2
    Partly w.mode rs d d' ∧ d'.Sound n := by
  intro d'
  induction rs generalizing w d with
  | nil => exact ⟨partly_of_observed _ (observed_self d) [], hd⟩
  | cons r rs ih =>
    have hfed : Fed w d (n + rs.length) r (w.put (sessionWith refusals) r d).1 _ _ :=
      put_step hmode hd hw rfl
    obtain ⟨hrest, hsound⟩ := ih (hfed.sameMode.symm ▸ hmode) hfed.sound hfed.remembers
    rw [hfed.sameMode] at hrest
    exact ⟨hfed.partly.trans hrest, hsound⟩

/-! ## A run that is not -/

/-- What a mode makes of a database when it takes all these records. -/
def takeAll (mode : WriteMode) :
    (opened : Bool) → List Record → (UniqueId → Option Record) → UniqueId → Option Record
  | _, [], records => records
  | opened, r :: rs, records => takeAll mode true rs (take mode r (opening mode opened records))

theorem takes_step (hmode : w.mode ≠ .addAsNew) (hd : d.Sound (n + rs.length))
    (hw : w.Remembers d) (htakes : (consumer (sessionWith refusals)).Takes (w, d) rs (w', d')) :
    ∀ name, d'.record? name = takeAll w.mode (w.target? name).isSome
      (rs.filter (·.database = name)) (d.record? name) := by
  induction rs generalizing w d with
  | nil =>
    cases htakes
    exact fun _ => rfl
  | cons r rs ih =>
    cases htakes with
    | @cons _ u _ _ _ hput hrest =>
      obtain ⟨w₁, d₁⟩ := u
      have hfed : Fed w d (n + rs.length) r _ w₁ d₁ := put_step hmode hd hw hput
      intro name
      rw [ih (hfed.sameMode.symm ▸ hmode) hfed.sound hfed.remembers hrest name, hfed.sameMode]
      by_cases hname : r.database = name
      · subst hname
        obtain ⟨hopened, hrecord⟩ := hfed.taken rfl
        rw [List.filter_cons_of_pos (by simp), hopened, hrecord]
        rfl
      · rw [List.filter_cons_of_neg (by simpa using hname), hfed.targets name (Ne.symm hname),
          hfed.leaves.record? (Ne.symm hname)]

/-! ### All at once -/

theorem find?_of_mem (hn : (rs.map (·.uniqueId)).Nodup) (hr : r ∈ rs) :
    rs.find? (·.uniqueId == r.uniqueId) = some r := by
  cases hfind : rs.find? (·.uniqueId == r.uniqueId) with
  | none => exact absurd (List.find?_eq_none.mp hfind r hr) (by simp)
  | some x =>
    have hid : x.uniqueId = r.uniqueId := by simpa using List.find?_some hfind
    exact congrArg some (List.inj_on_of_nodup_map hn (List.mem_of_find?_eq_some hfind) hr hid)

theorem find?_cons_id (r : Record) (rs : List Record) (u : UniqueId) :
    (r :: rs).find? (·.uniqueId == u)
      = if u = r.uniqueId then some r else rs.find? (·.uniqueId == u) := by
  split
  · rename_i hu
    simp [hu]
  · rename_i hu
    simp [Ne.symm hu]

/-- A mode that overwrites gives every id the record that was put under it. -/
theorem takeAll_overwriting (honly : mode ≠ .addOnly) (opened : Bool)
    (hopened : mode = .eraseAll → opened = true) (hn : (rs.map (·.uniqueId)).Nodup)
    (records : UniqueId → Option Record) (u : UniqueId) :
    takeAll mode opened rs records u = (rs.find? (·.uniqueId == u)).or (records u) := by
  induction rs generalizing opened records with
  | nil => rfl
  | cons r rs ih =>
    rw [List.map_cons, List.nodup_cons] at hn
    have hopening : opening mode opened records = records :=
      if_neg fun h => absurd (h.2.symm.trans (hopened h.1)) Bool.false_ne_true
    rw [takeAll, hopening, ih true (fun _ => rfl) hn.2, take, if_neg fun h => honly h.1,
      find?_cons_id]
    by_cases hu : u = r.uniqueId
    · subst hu
      simp [find?_eq_none_iff.mpr hn.1]
    · simp [hu]

/-- A mode that only adds gives an id the record that was put under it if it had none. -/
theorem takeAll_addOnly (opened : Bool) (hn : (rs.map (·.uniqueId)).Nodup)
    (records : UniqueId → Option Record) (u : UniqueId) :
    takeAll .addOnly opened rs records u = (records u).or (rs.find? (·.uniqueId == u)) := by
  induction rs generalizing opened records with
  | nil => exact (Option.or_none ..).symm
  | cons r rs ih =>
    rw [List.map_cons, List.nodup_cons] at hn
    rw [takeAll, opening_of_keeping (by decide), ih true hn.2, take, find?_cons_id]
    by_cases hu : u = r.uniqueId
    · subst hu
      cases hrecord : records r.uniqueId with
      | some old => simp [hrecord]
      | none => simp
    · split
      · simp
      · simp [hu]

/-- What a broken run has left makes no difference to a whole one. -/
theorem takeAll_of_partly (hmode : mode ≠ .addAsNew) (hn : (rs.map (·.uniqueId)).Nodup)
    {before now : UniqueId → Option Record} (hnone : rs = [] → now = before)
    (hpartly : mode ≠ .eraseAll → ∀ u, now u = before u ∨
      (mode = .addOnly → before u = none) ∧ ∃ r ∈ rs, r.uniqueId = u ∧ now u = some r) :
    takeAll mode false rs now = takeAll mode false rs before := by
  cases mode with
  | eraseAll =>
    -- whatever was there is erased
    cases rs with
    | nil => exact hnone rfl
    | cons r rs => rfl
  | addAndOverwrite =>
    funext u
    have hall := takeAll_overwriting (show WriteMode.addAndOverwrite ≠ .addOnly by decide) false
      (fun h => nomatch h) hn
    rw [hall, hall]
    rcases hpartly (by decide) u with hsame | ⟨-, r, hr, rfl, -⟩
    · rw [hsame]
    · rw [find?_of_mem hn hr]
      rfl
  | addOnly =>
    funext u
    rw [takeAll_addOnly false hn, takeAll_addOnly false hn]
    rcases hpartly (by decide) u with hsame | ⟨hadd, r, hr, rfl, hrecord⟩
    · rw [hsame]
    · rw [hrecord, hadd rfl, find?_of_mem hn hr]
      rfl
  | addAsNew => exact absurd rfl hmode

/-! ## Over a broken link -/

/-- Over a broken link, no database answers. -/
theorem run_unlinked (refusals : Refusals) (hd : d.linkBroken = true)
    (hc : c.database? = some id) :
    ∃ e d', (sessionWith refusals).run c d = (.error e, d') := by
  cases hrefusal : refusals c d with
  | some e => exact ⟨e, d.logged ⟨c, false⟩, by simp only [sessionWith, hrefusal]⟩
  | none =>
    have hreach : ∀ id, d.reach id = .error (.unreachable "link dropped") := fun _ => if_pos hd
    refine ⟨.unreachable "link dropped", (d.run c).2, ?_⟩
    simp only [sessionWith, hrefusal]
    refine Prod.ext ?_ rfl
    cases c with
    | catalog | databaseId => cases hc
    | slotTable | readRecord | writeRecord | addRecord | deleteRecord | clearDatabase =>
      simp [run, execute, hreach]

/-- Over a broken link, no database is opened. -/
theorem put_unlinked (refusals : Refusals) (hd : d.linkBroken = true)
    (hw : w.target? r.database = none) :
    ∃ e d', w.put (sessionWith refusals) r d = (.error e, w, d') ∧ d.Observed d' := by
  rcases hid : (sessionWith refusals).databaseId r.database d with ⟨e | id, d₁⟩
  · exact ⟨e, d₁, by simp [put, freshTarget, reach, hw, hid], observed_of_refused hid⟩
  have hseen : d.Observed d₁ := observed_of_not_isMutation rfl hid
  have hd₁ : d₁.linkBroken = true := hseen.linkBroken.trans hd
  by_cases herase : w.mode = .eraseAll
  · obtain ⟨e, d₂, hclear⟩ := run_unlinked refusals (c := .clearDatabase id) hd₁ rfl
    refine ⟨e, d₂, ?_, hseen.trans (observed_of_refused hclear)⟩
    rw [← Session.clearDatabase] at hclear
    simp [put, freshTarget, reach, hw, hid, herase, hclear]
  · obtain ⟨e, d₂, htable⟩ := run_unlinked refusals (c := .slotTable id) hd₁ rfl
    refine ⟨e, d₂, ?_, hseen.trans (observed_of_refused htable)⟩
    rw [← Session.slotTable] at htable
    simp [put, freshTarget, reach, hw, hid, herase, htable]

/-- Over a broken link, all is refused. -/
theorem putAll_unlinked (refusals : Refusals) (rs : List Record) (hd : d.linkBroken = true)
    (hw : ∀ name, w.target? name = none) :
    d.Observed ((consumer (sessionWith refusals)).putAll rs (w, d)).2.2 ∧
      ∀ a ∈ ((consumer (sessionWith refusals)).putAll rs (w, d)).1, a ≠ .ok () := by
  induction rs generalizing d with
  | nil => exact ⟨observed_self d, fun _ h => absurd h List.not_mem_nil⟩
  | cons r rs ih =>
    obtain ⟨e, d', hput, hseen⟩ := put_unlinked refusals hd (hw r.database)
    obtain ⟨hrest, hanswers⟩ := ih (hseen.linkBroken.trans hd)
    rw [putAll_cons hput]
    refine ⟨hseen.trans hrest, List.forall_mem_cons.mpr ⟨fun h => ?_, hanswers⟩⟩
    cases h

/-! ## Running it again -/

/-- What a fresh writer answers when it is fed these records, and the device afterwards. -/
def feed (session : Session Device) (mode : WriteMode) (rs : List Record) (d : Device) :
    List (Except Error Unit) × Device :=
  let (answers, _, d') := (consumer session).putAll rs ({ mode }, d)
  (answers, d')

theorem feed_partly (keeping : mode ≠ .addAsNew) (hd : d.Sound (n + rs.length)) :
    Partly mode rs d (feed (sessionWith refusals) mode rs d).2 ∧
      (feed (sessionWith refusals) mode rs d).2.Sound n := by
  have hempty : ({ mode } : Writer).Remembers d := nofun
  exact putAll_partly keeping hd hempty

theorem record?_feed (keeping : mode ≠ .addAsNew) (hd : d.Sound rs.length)
    (accepted : ∀ a ∈ (feed session mode rs d).1, a = .ok ()) (name : String) :
    (feed session mode rs d).2.record? name
      = takeAll mode false (rs.filter (·.database = name)) (d.record? name) := by
  have hempty : ({ mode } : Writer).Remembers d := nofun
  have htakes : (consumer (sessionWith fun _ _ => none)).Takes ({ mode }, d) rs _ :=
    Consumer.takes_of_putAll rfl accepted
  exact takes_step keeping ((Nat.zero_add rs.length).symm ▸ hd) hempty htakes name

/-- That all records are taken depends on the faults and on the ids that are there. -/
theorem feed_accepted_iff (hd : d.Sound rs.length) :
    (∀ a ∈ (feed session mode rs d).1, a = .ok ()) ↔
      d.Admits mode (fun name => { records := d.contents name }) rs :=
  putAll_accepted_iff rs ((Nat.zero_add rs.length).symm ▸ hd) (tracks_start mode d)
    fun _ _ _ => nofun

/-- Over a broken link, nothing but an empty list is taken. -/
theorem feed_unlinked (refusals : Refusals) (mode : WriteMode) (rs : List Record)
    (hd : d.linkBroken = true) :
    (feed (sessionWith refusals) mode rs d).2.linkBroken = true ∧
      ((∀ a ∈ (feed session mode rs d).1, a = .ok ()) → rs = []) := by
  have hempty : ∀ name, ({ mode } : Writer).target? name = none := fun _ => rfl
  obtain ⟨hseen, -⟩ := putAll_unlinked refusals rs hd hempty
  obtain ⟨-, hrefused⟩ := putAll_unlinked (fun _ _ => none) rs hd hempty
  refine ⟨hseen.linkBroken.trans hd, fun haccepted => ?_⟩
  cases rs with
  | nil => rfl
  | cons r rs => exact absurd (haccepted _ List.mem_cons_self) (hrefused _ List.mem_cons_self)

/-- Within a database, ids tell the records apart. -/
theorem nodup_of_distinct (distinct : (rs.map fun r => (r.database, r.uniqueId)).Nodup)
    (name : String) : ((rs.filter (·.database = name)).map (·.uniqueId)).Nodup := by
  have hpairs : (rs.filter (·.database = name)).map (fun r => (r.database, r.uniqueId))
      = ((rs.filter (·.database = name)).map (·.uniqueId)).map (name, ·) := by
    rw [List.map_map]
    refine List.map_congr_left fun r hr => ?_
    rw [← of_decide_eq_true (List.mem_filter.mp hr).2]
    rfl
  refine List.Nodup.of_map (name, ·) ?_
  rw [← hpairs]
  exact distinct.sublist (List.filter_sublist.map _)

/-- **A restore can be run again.**  A writer that keeps ids is fed any part of the records, with
any of its commands refused.  Then another is fed all of them, and none is refused.  Had they been
fed once to the device as it was, none would have been refused either, and every database comes to
hold under every id the record that it would hold then. -/
theorem resumed (mode : WriteMode) (keeping : mode ≠ .addAsNew) {d : Device} (proper : d.Proper)
    {part rs : List Record} (fed : part.Sublist rs)
    (distinct : (rs.map fun r => (r.database, r.uniqueId)).Nodup)
    (room : d.Room (rs.length + part.length)) (refusals : Refusals) :
    let broken := (feed (sessionWith refusals) mode part d).2
    (∀ a ∈ (feed session mode rs broken).1, a = .ok ()) →
    (∀ a ∈ (feed session mode rs d).1, a = .ok ()) ∧
    ∀ name id, (feed session mode rs broken).2.record? name id
      = (feed session mode rs d).2.record? name id := by
  intro broken again
  by_cases hlinked : d.linkBroken = true
  · obtain ⟨hbroken, -⟩ := feed_unlinked refusals mode part hlinked
    obtain rfl : rs = [] := (feed_unlinked refusals mode rs hbroken).2 again
    obtain rfl := List.sublist_nil.mp fed
    exact ⟨nofun, fun _ _ => rfl⟩
  have hd : d.Sound (rs.length + part.length) := ⟨proper, eq_false_of_ne_true hlinked, room⟩
  obtain ⟨hpartly, hbroken⟩ : Partly mode part d broken ∧ broken.Sound rs.length :=
    feed_partly keeping hd
  have hd : d.Sound rs.length := hd.mono (Nat.le_add_right _ _)
  have once : ∀ a ∈ (feed session mode rs d).1, a = .ok () :=
    (feed_accepted_iff hd).mpr (hpartly.admits keeping ((feed_accepted_iff hbroken).mp again))
  refine ⟨once, fun name id => ?_⟩
  rw [record?_feed keeping hbroken again, record?_feed keeping hd once]
  refine congrFun (takeAll_of_partly keeping (nodup_of_distinct distinct name) (fun hnone => ?_)
    fun hmode u => ?_) id
  · refine hpartly.others name fun r hr hname => ?_
    exact List.filter_eq_nil_iff.mp hnone r (fed.subset hr) (decide_eq_true hname)
  · refine (hpartly.records hmode name u).imp_right fun ⟨hadd, _, r, hr, hname, hrest⟩ => ?_
    exact ⟨hadd, r, List.mem_filter.mpr ⟨fed.subset hr, decide_eq_true hname⟩, hrest⟩

/-- Three records are added to a device that has one of them already.  The first time, only the last
two are fed and the addition of the third is refused; the second time, all are fed. -/
theorem resumed_adding :
    let memo (id : UniqueId) (content : List UInt8) : Record := ⟨"Memos", id, 0, ⟨content.toArray⟩⟩
    let d : Device :=
      { databases := [{ name := "Memos", records := Slots.numbered 0 [memo 7 [1]] }]
        renumbering := true }
    let rs := [memo 7 [2], memo 8 [3], memo 9 []]
    let part := [memo 8 [3], memo 9 []]
    let refusals : Refusals := fun c _ =>
      match c with
      | .addRecord _ r => if r.uniqueId = 9 then some (.rejected "full") else none
      | _ => none
    let broken := (feed (sessionWith refusals) .addOnly part d).2
    broken.contents "Memos" = [memo 7 [1], memo 8 [3]] ∧
      (feed session .addOnly rs broken).2.contents "Memos" = [memo 7 [1], memo 8 [3], memo 9 []] ∧
      (∀ a ∈ (feed session .addOnly rs d).1, a = .ok ()) ∧
      ∀ name id, (feed session .addOnly rs broken).2.record? name id
        = (feed session .addOnly rs d).2.record? name id := by
  intro memo d rs part refusals broken
  have fed : part.Sublist rs := by decide
  have again : ∀ a ∈ (feed session .addOnly rs broken).1, a = .ok () := by decide +kernel
  refine ⟨by decide +kernel, by decide +kernel, ?_⟩
  exact resumed .addOnly (by decide) (by decide) fed (by decide) (by decide) refusals again

end Writer

end Palmtop.Device
