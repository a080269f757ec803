import Palmtop.Proofs.Device.Sequences

/-! # Renumbering

What a device promises that moves the records of a database to fresh slots after a mutation: the
records keep their order, no other database is touched, and a slot that a table gave for an id
before does not lead to that id any more.

Renumberings lie 1000 slots apart, so the last promise is a matter of counting.  A database moved
`n` times starts at least `1000 * n` slots behind where it started (`startsAt_after`).  A deletion
brings the records behind it one place nearer to the front, and nothing else does, unless a record
is put over one of another id or the database is cleared (`Behind.applyAll`).  So a slot can hold
the id again only in these two ways, or where the database had the id twice, and then only if the
record was at the place `1000 * n` or behind (`Recurs`).  In a database of more than 1000 records
that does happen (`recurs_after_clearing`).
-/
namespace Palmtop

/-! ## Consecutive slots -/

namespace Slots

variable {α : Type} {s : Slots α} {base place : Nat} {slot : Slot}

/-- The slots in use are the consecutive numbers from `base` on. -/
def StartsAt (s : Slots α) (base : Nat) : Prop :=
  s.keys.map UInt32.toNat = List.range' base s.size

instance (s : Slots α) (base : Nat) : Decidable (s.StartsAt base) :=
  inferInstanceAs (Decidable (_ = _))

theorem StartsAt.toNat_eq (h : s.StartsAt base) (hslot : s.keys[place]? = some slot) :
    slot.toNat = base + place := by
  have hlt : place < s.size := by
    rw [← length_keys]
    exact (List.getElem?_eq_some_iff.mp hslot).1
  have hat : (s.keys.map UInt32.toNat)[place]? = some slot.toNat := by
    rw [List.getElem?_map, hslot, Option.map_some]
  rw [h, List.getElem?_range' hlt] at hat
  have := Option.some.inj hat
  omega

theorem startsAt_of_values_eq_nil (h : s.values = []) (base : Nat) : s.StartsAt base := by
  have hpairs : s.pairs = [] := List.map_eq_nil_iff.mp h
  simp [StartsAt, keys, size, hpairs]

theorem startsAt_numbered {base : Slot} {values : List α}
    (h : base.toNat + values.length ≤ UInt32.size) :
    (numbered base values).StartsAt base.toNat := by
  have hsize : (numbered base values).size = values.length := by
    rw [← length_values, values_numbered h]
  rw [StartsAt, hsize, keys, pairs_numbered h, List.map_map, List.map_map]
  have hkeys : (values.zipIdx.map fun p => base.toNat + p.2)
      = List.range' base.toNat values.length := by
    have hcounted := congrArg (List.map (base.toNat + ·)) (List.zipIdx_map_snd 0 values)
    rw [List.map_map, List.map_add_range', Nat.add_zero] at hcounted
    exact hcounted
  rw [← hkeys]
  refine List.map_congr_left fun p hp => ?_
  exact toNat_add_ofNat h (List.mem_zipIdx' hp).1

end Slots

namespace Device

variable {d d' : Device} {id : DatabaseId} {db new : Database} {c : Command} {cs : List Command}
  {a : Alteration} {as : List Alteration}

/-- As setting a device up leaves it: the slots in use are the numbers from zero on. -/
structure Fresh (d : Device) : Prop where
  base : d.renumberBase = 0
  slots : ∀ db ∈ d.databases, db.records.StartsAt 0

theorem Fresh.addDatabase {name : String} {rs : List Record} (h : d.Fresh)
    (hadd : d.addDatabase name rs = .ok d') (hl : rs.length ≤ UInt32.size) : d'.Fresh := by
  unfold Device.addDatabase at hadd
  split at hadd
  · cases hadd
  obtain rfl := Except.ok.inj hadd
  refine ⟨h.base, fun db hdb => ?_⟩
  rcases List.mem_append.mp hdb with hdb | hdb
  · exact h.slots db hdb
  · rw [List.mem_singleton.mp hdb]
    exact Slots.startsAt_numbered (by simpa using hl)

/-! ## How far renumbering has come -/

@[simp] theorem renumbering_storing :
    (d.storing id db a c).renumbering = d.renumbering := by
  unfold storing
  split
  · rw [mutate_eq]
    rfl
  · rfl

theorem renumbering_run (d : Device) (c : Command) : (d.run c).2.renumbering = d.renumbering := by
  change (d.execute c).2.renumbering = d.renumbering
  rcases execute_alters d c with h | ⟨-, id, db, a, -, -, -, h⟩
  · rw [h]
  · rw [h, renumbering_storing]

theorem toNat_base_storing (hren : d.renumbering = true) (hr : d.Room 1)
    (hdb : d.database? id = some db) :
    (d.storing id db a c).renumberBase.toNat
      = d.renumberBase.toNat + 1000 * [a].countP Alteration.moves := by
  unfold storing
  by_cases ha : a.moves = true
  · rw [if_pos ha, mutate_eq]
    simp only [hren, if_true, List.countP_singleton, ha]
    exact hr.toNat_base hren (database?_mem hdb)
  · rw [if_neg ha, List.countP_singleton, if_neg ha]
    rfl

/-- The next renumbering starts 1000 slots on for each that was made. -/
theorem base_le_run (hren : d.renumbering = true) (hr : c.isMutation = true → d.Room 1)
    (id : DatabaseId) :
    d.renumberBase.toNat + 1000 * (d.alteration? id c).toList.countP Alteration.moves
      ≤ (d.run c).2.renumberBase.toNat := by
  change _ ≤ (d.execute c).2.renumberBase.toNat
  cases h : d.alteration? id c with
  | some a =>
    obtain ⟨db, hdb, ha, hstoring⟩ := execute_of_alteration? h
    rw [hstoring, toNat_base_storing hren (hr (isMutation_of_alteration? ha)) hdb]
    exact Nat.le_refl _
  | none =>
    rcases execute_alters d c with hsame | ⟨-, other, db, a, -, hdb, ha, hstoring⟩
    · rw [hsame]
      exact Nat.le_refl _
    · rw [hstoring, toNat_base_storing hren (hr (isMutation_of_alteration? ha)) hdb]
      exact Nat.le_add_right ..

/-! ## Where a database starts -/

theorem startsAt_altered (hren : d.renumbering = true) (hr : d.Room 1)
    (hdb : d.database? id = some db) (ha : c.alteration? db = some a) :
    (d.altered db a c).records.StartsAt
      (d.renumberBase.toNat + 1000 * [a].countP Alteration.moves) := by
  by_cases hmoves : a.moves = true
  · have hbase := hr.toNat_base hren (database?_mem hdb)
    have hsize := size_changedBy hr hdb ha
    have hroom := hr.base hren db (database?_mem hdb)
    have hstarts : (Slots.numbered (d.renumberBase + renumberStride)
        (db.changedBy c).records.values).StartsAt (d.renumberBase + renumberStride).toNat := by
      refine Slots.startsAt_numbered ?_
      rw [hbase, Slots.length_values]
      omega
    rw [hbase] at hstarts
    rw [altered, if_pos hmoves, stored, if_pos hren, List.countP_singleton, if_pos hmoves]
    exact hstarts
  · refine Slots.startsAt_of_values_eq_nil ?_ _
    rw [values_altered hr hdb ha]
    cases a with
    | cleared => rfl
    | replaced | appended | removed => exact absurd rfl hmoves

/-- Every database starts no further on than where the last renumbering started. -/
def Laid (d : Device) : Prop :=
  ∀ id db, d.database? id = some db → ∃ base ≤ d.renumberBase.toNat, db.records.StartsAt base

theorem Fresh.laid (h : d.Fresh) : d.Laid :=
  fun _ db hdb => ⟨0, Nat.zero_le _, h.slots db (database?_mem hdb)⟩

theorem Laid.run (h : d.Laid) (hren : d.renumbering = true)
    (hr : c.isMutation = true → d.Room 1) : (d.run c).2.Laid := by
  intro id new hnew
  have hbase := base_le_run hren hr id
  cases hdb : d.database? id with
  | none =>
    have hnone : d.alteration? id c = none := by
      rw [alteration?, hdb, Option.bind_none, ite_self]
    rw [database?_run_of_none hnone, hdb] at hnew
    cases hnew
  | some db =>
    rcases database?_run_cases hdb c with ⟨hnone, hsame⟩ | ⟨a, ha, hasked, haltered⟩
    · obtain rfl := Option.some.inj (hnew.symm.trans hsame)
      obtain ⟨base, hle, hstarts⟩ := h id new hdb
      exact ⟨base, by omega, hstarts⟩
    · obtain rfl := Option.some.inj (hnew.symm.trans haltered)
      rw [ha] at hbase
      exact ⟨_, hbase, startsAt_altered hren (hr (isMutation_of_alteration? hasked)) hdb hasked⟩

theorem Laid.after (h : d.Laid) (hren : d.renumbering = true) (hroom : d.Ample cs) :
    (d.after cs).Laid ∧ (d.after cs).renumbering = true := by
  induction cs generalizing d with
  | nil => exact ⟨h, hren⟩
  | cons c cs ih => exact ih (h.run hren hroom.1) ((renumbering_run d c).trans hren) hroom.2

/-- A database that was altered starts 1000 slots on for each time it was moved. -/
theorem startsAt_after (hren : d.renumbering = true) (hdb : d.database? id = some db)
    (hroom : d.Ample cs) : ∃ new, (d.after cs).database? id = some new ∧
      (d.alterations id cs = [] → new = db) ∧
      (d.alterations id cs ≠ [] → ∃ base, new.records.StartsAt base ∧
        d.renumberBase.toNat + 1000 * (d.alterations id cs).countP Alteration.moves ≤ base) := by
  induction cs generalizing d db with
  | nil => exact ⟨db, hdb, fun _ => rfl, fun hne => absurd rfl hne⟩
  | cons c cs ih =>
    obtain ⟨hfirst, hrest⟩ := hroom
    have hbase := base_le_run hren hfirst id
    have hren' := (renumbering_run d c).trans hren
    rw [alterations, List.countP_append]
    rcases database?_run_cases hdb c with ⟨hnone, hsame⟩ | ⟨a, ha, hasked, haltered⟩
    · obtain ⟨new, hnew, hunaltered, hstarts⟩ := ih hren' hsame hrest
      rw [hnone] at hbase ⊢
      refine ⟨new, hnew, hunaltered, fun hne => ?_⟩
      obtain ⟨base, hat, hle⟩ := hstarts hne
      exact ⟨base, hat, by simp only [Option.toList_none, List.countP_nil] at hbase ⊢; omega⟩
    · obtain ⟨new, hnew, hunaltered, hstarts⟩ := ih hren' haltered hrest
      rw [ha, Option.toList_some] at hbase ⊢
      refine ⟨new, hnew, fun he => absurd he (by simp), fun _ => ?_⟩
      by_cases hlater : (d.run c).2.alterations id cs = []
      · rw [hunaltered hlater, hlater, List.countP_nil]
        exact ⟨_, startsAt_altered hren (hfirst (isMutation_of_alteration? hasked)) hdb hasked,
          Nat.le_refl _⟩
      · obtain ⟨base, hat, hle⟩ := hstarts hlater
        exact ⟨base, hat, by omega⟩

/-! ## Where an id stands -/

/-- Whether an alteration can bring the id to a place far before the one it had. -/
def Alteration.Uproots (u : UniqueId) (rs : List Record) : Alteration → Prop
  | .replaced place r => r.uniqueId = u ∧ ∃ old, rs[place]? = some old ∧ old.uniqueId ≠ u
  | .cleared => True
  | .appended _ | .removed _ => False

/-- One of the alterations can bring the id to a place far before the one it had. -/
def Uprooted (u : UniqueId) : List Alteration → List Record → Prop
  | [], _ => False
  | a :: as, rs => a.Uproots u rs ∨ Uprooted u as (a.apply rs)

/-- The id stands at no place before this one, and so many records there are. -/
structure Behind (u : UniqueId) (place : Nat) (rs : List Record) : Prop where
  length : place ≤ rs.length
  least : ∀ i r, rs[i]? = some r → r.uniqueId = u → place ≤ i

variable {u : UniqueId} {place : Nat} {rs : List Record}

theorem Behind.mono {place' : Nat} (h : Behind u place rs) (hle : place' ≤ place) :
    Behind u place' rs :=
  ⟨hle.trans h.length, fun i r hr hid => hle.trans (h.least i r hr hid)⟩

theorem Behind.set {i : Nat} {r : Record} (h : Behind u place rs)
    (hr : r.uniqueId = u → ∀ old, rs[i]? = some old → old.uniqueId = u) :
    Behind u place (rs.set i r) := by
  refine ⟨by rw [List.length_set]; exact h.length, fun j x hx hid => ?_⟩
  rw [List.getElem?_set] at hx
  split at hx
  · rename_i hij
    subst hij
    split at hx
    · rename_i hlt
      obtain rfl := Option.some.inj hx
      have hat := List.getElem?_eq_getElem hlt
      exact h.least i _ hat (hr hid _ hat)
    · cases hx
  · exact h.least j x hx hid

theorem Behind.append (h : Behind u place rs) (r : Record) : Behind u place (rs ++ [r]) := by
  have hlength := h.length
  refine ⟨by rw [List.length_append]; omega, fun i x hx hid => ?_⟩
  by_cases hi : i < rs.length
  · rw [List.getElem?_append_left hi] at hx
    exact h.least i x hx hid
  · omega

theorem Behind.eraseIdx (h : Behind u place rs) (i : Nat) :
    Behind u (place - 1) (rs.eraseIdx i) := by
  have hlength := h.length
  refine ⟨?_, fun j x hx hid => ?_⟩
  · rw [List.length_eraseIdx]
    split <;> omega
  · rw [List.getElem?_eraseIdx] at hx
    split at hx
    · have := h.least j x hx hid
      omega
    · have := h.least (j + 1) x hx hid
      omega

theorem Behind.apply (h : Behind u place rs) (ha : ¬ a.Uproots u rs) :
    Behind u (place - 1) (a.apply rs) := by
  cases a with
  | replaced i r =>
    -- where the record put there has the id, the one whose place it takes had it before
    have hold : r.uniqueId = u → ∀ old, rs[i]? = some old → old.uniqueId = u := by
      intro hid old hat
      by_contra hne
      exact ha ⟨hid, old, hat, hne⟩
    exact (h.set hold).mono (Nat.sub_le ..)
  | appended r => exact (h.append r).mono (Nat.sub_le ..)
  | removed i => exact h.eraseIdx i
  | cleared => exact absurd trivial ha

/-- Each alteration brings the id forward by one place at most. -/
theorem Behind.applyAll (h : Behind u place rs) (has : ¬ Uprooted u as rs) :
    Behind u (place - as.countP Alteration.moves) (Alteration.applyAll as rs) := by
  induction as generalizing place rs with
  | nil => exact h
  | cons a as ih =>
    have hfirst : ¬ a.Uproots u rs := fun ha => has (Or.inl ha)
    have hmoves : a.moves = true := by
      cases a with
      | cleared => exact absurd trivial hfirst
      | replaced | appended | removed => rfl
    have hrest := ih (h.apply hfirst) fun hlater => has (Or.inr hlater)
    rw [List.countP_cons_of_pos hmoves, Nat.add_comm, ← Nat.sub_sub]
    exact hrest

/-- Alterations none of which moves a record leave none. -/
theorem applyAll_eq_nil (hne : as ≠ []) (hmoves : as.countP Alteration.moves = 0) :
    Alteration.applyAll as rs = [] := by
  obtain ⟨init, last, rfl⟩ := List.eq_nil_or_concat as |>.resolve_left hne
  have hlast := List.countP_eq_zero.mp hmoves last (by simp)
  cases last with
  | cleared =>
    rw [List.concat_eq_append, Alteration.applyAll_append]
    rfl
  | replaced | appended | removed => exact absurd rfl hlast

/-! ## What a table and a slot answer -/

theorem slotTable_answered {t : SlotTable} (h : (d.run (.slotTable id)).1 = .ok t) :
    ∃ db, d.database? id = some db ∧ t = db.table := by
  rw [run_eq] at h
  simp only [execute] at h
  split at h
  · cases h
  rename_i db hreach
  split at h
  · cases h
  · exact ⟨db, database?_of_reach hreach, (Except.ok.inj h).symm⟩

theorem readRecord_answered {slot : Slot} {r : Record}
    (h : (d.run (.readRecord id slot)).1 = .ok r) :
    ∃ db, d.database? id = some db ∧ db.records.get? slot = some r := by
  rw [run_eq] at h
  simp only [execute] at h
  split at h
  · cases h
  rename_i db hreach
  split at h
  · rename_i hat
    obtain rfl := Except.ok.inj h
    exact ⟨db, database?_of_reach hreach, hat⟩
  · cases h

/-- A table lists the slots and ids of the database in the order of its records. -/
theorem listed_iff {slot : Slot} : db.table.toList[place]? = some (slot, u) ↔
    ∃ r, db.records.keys[place]? = some slot ∧ db.records.values[place]? = some r ∧
      r.uniqueId = u := by
  have htoList : db.table.toList = db.records.pairs.map fun p => (p.1, p.2.uniqueId) := rfl
  rw [htoList, Slots.keys, Slots.values, List.getElem?_map, List.getElem?_map, List.getElem?_map]
  cases hp : db.records.pairs[place]? with
  | none => simp
  | some p => simp

/-- Where no earlier place is listed with the id, it stands at none before. -/
theorem behind_of_listed {slot : Slot} (h : db.table.toList[place]? = some (slot, u))
    (hfirst : ¬ ∃ earlier < place, ∃ slot, db.table.toList[earlier]? = some (slot, u)) :
    Behind u place db.records.values := by
  obtain ⟨r, -, hat, -⟩ := listed_iff.mp h
  refine ⟨Nat.le_of_lt (List.getElem?_eq_some_iff.mp hat).1, fun i x hx hid => ?_⟩
  by_contra hlt
  have hi : i < db.records.keys.length := by
    rw [Slots.length_keys, ← Slots.length_values]
    exact (List.getElem?_eq_some_iff.mp hx).1
  exact hfirst ⟨i, by omega, db.records.keys[i],
    listed_iff.mpr ⟨x, List.getElem?_eq_getElem hi, hx, hid⟩⟩

/-! ## What callers may rely on -/

/-- How a slot can hold an id again that a table gave for it at this place, after alterations of the
records there were: it was so far behind that the slots reached it again, and the id got there by
more than deletions, or was in the database twice. -/
structure Recurs (t : SlotTable) (place : Nat) (u : UniqueId) (rs : List Record)
    (as : List Alteration) : Prop where
  moved : 0 < as.countP Alteration.moves
  far : 1000 * as.countP Alteration.moves ≤ place
  cause : Uprooted u as rs ∨ ∃ earlier < place, ∃ slot, t.toList[earlier]? = some (slot, u)

/-- What callers may rely on with a renumbering device. -/
structure Renumbers (d : Device) : Prop where
  /-- Whatever commands it is given, the records of a database are as the alterations made leave
  them, one after another. -/
  sequence : ∀ {id db cs}, d.database? id = some db → d.Ample cs →
    ∃ new, (d.after cs).database? id = some new ∧ new.bare = db.bare ∧
      new.records.values = Alteration.applyAll (d.alterations id cs) db.records.values
  /-- A device that does not renumber, with the same records in the same order, accepts the same
  and ends with the same records in the same order. -/
  order : ∀ {t cs cs'}, t.renumbering = false → d.Alike t → d.AskAlike t cs cs' → d.Ample cs →
    t.Ample cs' → (d.after cs).Alike (t.after cs') ∧
      ∀ id, d.alterations id cs = t.alterations id cs'
  /-- A command moves no record of a database it does not address. -/
  apart : ∀ {id c}, c.database? ≠ some id → (d.run c).2.database? id = d.database? id
  /-- Once a database was altered, a slot that a table gave for an id leads to that id no more,
  unless it stood 1000 places behind the first, or more, for each time the records were moved since,
  and the id came back there. -/
  stale : d.Fresh → ∀ {past later id db t place slot u r}, d.Ample past →
    (d.after past).database? id = some db → ((d.after past).run (.slotTable id)).1 = .ok t →
    t.toList[place]? = some (slot, u) → (d.after past).Ample later →
    (d.after past).alterations id later ≠ [] →
    (((d.after past).after later).run (.readRecord id slot)).1 = .ok r → r.uniqueId = u →
    Recurs t place u db.records.values ((d.after past).alterations id later)

/-- A slot holds an id again that it held before the alterations only where the database was moved
back onto it. -/
theorem Laid.recurs {t : SlotTable} {slot : Slot} {r : Record} (h : d.Laid)
    (hren : d.renumbering = true) (hdb : d.database? id = some db)
    (htable : (d.run (.slotTable id)).1 = .ok t) (hlisted : t.toList[place]? = some (slot, u))
    (hroom : d.Ample cs) (hne : d.alterations id cs ≠ [])
    (hread : ((d.after cs).run (.readRecord id slot)).1 = .ok r) (hid : r.uniqueId = u) :
    Recurs t place u db.records.values (d.alterations id cs) := by
  obtain ⟨x, hx, rfl⟩ := slotTable_answered htable
  obtain rfl : x = db := Option.some.inj (hx.symm.trans hdb)
  -- the slot counted from the start of the database, when the table was fetched and now
  obtain ⟨before, hbefore, hstarted⟩ := h id x hdb
  obtain ⟨-, hkey, -, -⟩ := listed_iff.mp hlisted
  have hwas : slot.toNat = before + place := hstarted.toNat_eq hkey
  obtain ⟨new, hnew, -, hstarts⟩ := startsAt_after hren hdb hroom
  obtain ⟨new', hnew', -, hvalues⟩ := values_after hdb hroom
  obtain rfl : new' = new := Option.some.inj (hnew'.symm.trans hnew)
  obtain ⟨y, hy, hat⟩ := readRecord_answered hread
  obtain rfl : y = new' := Option.some.inj (hy.symm.trans hnew)
  obtain ⟨base, hstarts, hbase⟩ := hstarts hne
  obtain ⟨now, hplace, hfound⟩ := Slots.exists_place?_of_get? hat
  have his : slot.toNat = base + now := hstarts.toNat_eq (Slots.place?_eq_some_iff.mp hplace)
  have hmoved : 0 < (d.alterations id cs).countP Alteration.moves := by
    by_contra hnone
    rw [hvalues, applyAll_eq_nil hne (by omega)] at hfound
    cases hfound
  refine ⟨hmoved, by omega, ?_⟩
  by_contra hunless
  rw [not_or] at hunless
  have hbehind := (behind_of_listed hlisted hunless.2).applyAll hunless.1
  have hleast := hbehind.least now r (hvalues ▸ hfound) hid
  omega

/-- **Renumbering.**  Whatever commands a renumbering device is given: its databases are altered as
those of a device that does not renumber, each without touching the others, and a slot from before
an alteration does not lead to its id any more, unless it was a thousand or more places behind the
first and the id came back by more than deletions. -/
theorem renumbers (hren : d.renumbering = true) : Renumbers d where
  sequence hdb hroom := values_after hdb hroom
  order _ halike hasked hd ht := halike.after hasked hd ht
  apart hc := database?_run_of_ne hc
  stale hfresh past later id db t place slot u r hpast hdb htable hlisted hlater hne hread hid := by
    obtain ⟨hlaid, hren⟩ := hfresh.laid.after hren hpast
    exact hlaid.recurs hren hdb htable hlisted hlater hne hread hid

/-- Two memos, a third added and the first deleted, and the second read by its slot after the
database was cleared and the same memo added again.  A device that does not renumber has the same
memos, with the first at another slot when it is deleted. -/
theorem renumbers_memos :
    let memo (u : UniqueId) : Record := ⟨"Memos", u, 0, ⟨#[1]⟩⟩
    let task : Record := ⟨"Tasks", 7, 0, ⟨#[2]⟩⟩
    let d : Device :=
      { databases := [{ name := "Memos", records := Slots.numbered 0 [memo 10, memo 20] },
          { name := "Tasks", records := Slots.numbered 0 [task] }]
        renumbering := true }
    let still : Device := { d with renumbering := false }
    let past : List Command :=
      [.addRecord 1 (memo 30), .writeRecord 2 0 task, .deleteRecord 1 1000]
    let past' : List Command := [.addRecord 1 (memo 30), .writeRecord 2 0 task, .deleteRecord 1 0]
    let later : List Command := [.clearDatabase 1, .addRecord 1 (memo 20)]
    d.renumbering = true ∧ Renumbers d ∧ (d.after past).Alike (still.after past') ∧ d.Fresh ∧
      ∀ r, (((d.after past).after later).run (.readRecord 1 3000)).1 = .ok r →
        r.uniqueId ≠ 20 := by
  intro memo task d still past past' later
  have hrenumbers : Renumbers d := renumbers rfl
  have hfresh : d.Fresh := ⟨rfl, by decide +kernel⟩
  have hroom : d.Ample past := by decide +kernel
  refine ⟨rfl, hrenumbers, ?_, hfresh, fun r hread hid => ?_⟩
  · have halike : d.Alike still := alike_of_databases rfl rfl
    have hasked : d.AskAlike still past past' :=
      ⟨⟨1, _, _, .appended (memo 30), rfl, rfl, rfl, rfl, rfl, rfl⟩,
        ⟨2, _, _, .replaced 0 task, rfl, rfl, rfl, rfl, by decide +kernel, by decide +kernel⟩,
        ⟨1, _, _, .removed 0, rfl, rfl, rfl, rfl, by decide +kernel, by decide +kernel⟩, trivial⟩
    exact (hrenumbers.order rfl halike hasked hroom (by decide +kernel)).1
  · let memos : Database := { name := "Memos", records := Slots.numbered 3000 [memo 20, memo 30] }
    have hdb : (d.after past).database? 1 = some memos := by decide +kernel
    have hlinked : (d.after past).linkBroken = false := by decide +kernel
    have htable : ((d.after past).run (.slotTable 1)).1 = .ok memos.table := by
      rw [run_eq, slotTable_eq hlinked hdb rfl]
    have hlisted : memos.table.toList[0]? = some (3000, 20) := by decide +kernel
    have hlater : (d.after past).alterations 1 later = [.cleared, .appended (memo 20)] := by
      decide +kernel
    have hrecurs := hrenumbers.stale hfresh hroom hdb htable hlisted (by decide +kernel)
      (by simp [hlater]) hread hid
    have hfar := hrecurs.far
    rw [hlater] at hfar
    exact absurd hfar (by decide)

/-- As a database is set up, its table gives each record at the slot of its place. -/
theorem idAt?_numbered {name : String} {r : Record} (h : rs.length ≤ UInt32.size)
    (hr : rs[place]? = some r) :
    (Database.table { name, records := Slots.numbered 0 rs }).idAt? (UInt32.ofNat place)
      = some r.uniqueId := by
  have hfits : (0 : Slot).toNat + rs.length ≤ UInt32.size := by simpa using h
  refine Slots.get?_eq_some_iff.mpr ?_
  rw [Database.table, Slots.pairs_map, Slots.pairs_numbered hfits, List.map_map]
  have hmem : (r, place) ∈ rs.zipIdx := List.mem_zipIdx_iff_getElem?.mpr hr
  refine List.mem_map.mpr ⟨(r, place), hmem, ?_⟩
  simp

/-- **A slot can hold the id it held before**: renumberings lie a thousand slots apart, so a
database of more records is moved onto slots it had, and clearing it moves nothing.  The last of
1001 records, added again after a clear, is at its old slot. -/
theorem recurs_after_clearing :
    let memo (i : Nat) : Record := ⟨"Memos", UInt64.ofNat i, 0, ⟨#[]⟩⟩
    let commands : List Command := [.clearDatabase 1, .addRecord 1 (memo 1000)]
    ∃ d : Device, ({ renumbering := true } : Device).addDatabase "Memos" ((List.range 1001).map memo)
        = .ok d ∧
      (∃ t, (d.run (.slotTable 1)).1 = .ok t ∧ t.idAt? 1000 = some 1000) ∧
      d.alterations 1 commands = [.cleared, .appended (memo 1000)] ∧
      ((d.after commands).run (.readRecord 1 1000)).1 = .ok (memo 1000) := by
  intro memo commands
  refine ⟨_, rfl, ⟨_, rfl, ?_⟩, by decide +kernel, by decide +kernel⟩
  have hlast : (((List.range 1001).map memo).map (·.inDatabase "Memos"))[1000]?
      = some (memo 1000) := by
    simp [memo, Record.inDatabase]
  have hfits : (((List.range 1001).map memo).map (·.inDatabase "Memos")).length
      ≤ UInt32.size := by
    simp [UInt32.size]
  exact idAt?_numbered hfits hlast

end Device

end Palmtop
