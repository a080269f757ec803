import Palmtop.Proofs.Association
import Palmtop.Proofs.Device.Commands
import Palmtop.Proofs.Device.Refusals
import Palmtop.Proofs.Device.SlotTable
import Palmtop.Proofs.Transfer

/-! # What a writer leaves behind

A writer that puts records into a device in memory brings every database to what `Merged` says.
The invariant is `Holds`: the database holds its page, and what the writer remembers of a database
it has opened is true of it — the id always, the slot table unless it is stale.

Putting a record touches one database and what the writer remembers of it (`Touches`), whether it
goes through (`put_spec`) or is refused for a fault of the database (`put_refused`).
-/
namespace Palmtop.Device.Writer

variable {mode : WriteMode} {w w' : Writer} {d d' after : Device} {n : Nat} {name other : String}
  {page : Page} {pages : String → Page} {id : DatabaseId} {db new : Database}

/-! ## Targets -/

theorem target?_setTarget (w : Writer) (name : String) (t : Target) (other : String) :
    (w.setTarget name t).target? other = if other = name then some t else w.target? other := by
  split
  · rename_i he
    rw [he]
    exact lookup_cons_filter_self name t w.targets
  · rename_i he
    exact lookup_cons_filter_of_ne he t w.targets

/-- What the writer remembers of a database is true. -/
structure Knows (d : Device) (name : String) (page : Page) (t : Target) : Prop where
  opened : page.opened = true
  lastNewId : t.table.lastNewId = page.given.headD 0
  database : ∃ db, d.database? t.id = some db ∧ db.name = name ∧
    (t.stale = false → t.table.ids = db.table.ids)

/-- The database of this name holds the page, and what the writer remembers of it is true. -/
structure Holds (mode : WriteMode) (w : Writer) (d : Device) (name : String) (page : Page) :
    Prop where
  contents : d.contents name = page.records
  unopened : w.target? name = none → page.opened = false ∧ page.given = []
  knows : ∀ t, w.target? name = some t → Knows d name page t
  given : mode = .addAsNew → page.given ⊆ page.uniqueIds

/-- The ids given out are those of records still there. -/
theorem Holds.nextId_fresh (h : Holds mode w d name page) (hm : mode = .addAsNew) :
    page.Fresh page.nextId := by
  refine Page.nextId_fresh (h.given hm) ?_
  rw [← h.contents]
  exact Nat.le_trans (Nat.add_le_add_right (length_contents_le d name) 2) (by decide)

/-- One database is touched, and what the writer remembers of it. -/
structure Touches (w : Writer) (d : Device) (n : Nat) (name : String) (w' : Writer) (d' : Device) :
    Prop where
  sound : d'.Sound n
  sameMode : w'.mode = w.mode
  leaves : d.Leaves d' name
  targets : ∀ other ≠ name, w'.target? other = w.target? other

theorem Touches.trans {w'' : Writer} {d'' : Device} {m : Nat} (h : Touches w d m name w' d')
    (h' : Touches w' d' n name w'' d'') : Touches w d n name w'' d'' where
  sound := h'.sound
  sameMode := h'.sameMode.trans h.sameMode
  leaves := h.leaves.trans h'.leaves
  targets other hne := (h'.targets other hne).trans (h.targets other hne)

/-- The other databases hold what they held. -/
theorem Touches.holds (ht : Touches w d n name w' d') (h : Holds mode w d other page)
    (hne : other ≠ name) : Holds mode w' d' other page where
  contents := by
    rw [Device.contents, ht.leaves.named? other hne]
    exact h.contents
  unopened hn := h.unopened (ht.targets other hne ▸ hn)
  knows t hn := by
    obtain ⟨hopened, hlast, x, hx, hxn, hids⟩ := h.knows t (ht.targets other hne ▸ hn)
    exact ⟨hopened, hlast, x, ht.leaves.database? _ x hx (hxn ▸ hne), hxn, hids⟩
  given := h.given

/-- One database changes, and the writer remembers it anew. -/
theorem holds_setTarget (hc : d.Changed after id db new) (page : Page) (t : Target)
    (hid : t.id = id) (hlast : t.table.lastNewId = page.given.headD 0)
    (hfresh : t.stale = false → t.table.ids = new.table.ids)
    (hrecords : new.records.values = page.records) (hopened : page.opened = true)
    (hgiven : mode = .addAsNew → page.given ⊆ page.uniqueIds) :
    Holds mode (w.setTarget db.name t) after db.name page where
  contents := by rw [hc.contents, if_pos rfl, hrecords]
  unopened hn := by
    rw [target?_setTarget, if_pos rfl] at hn
    cases hn
  knows u hu := by
    rw [target?_setTarget, if_pos rfl] at hu
    obtain rfl := Option.some.inj hu
    exact ⟨hopened, hlast, new, hid ▸ hc.database?_self, hc.name, hfresh⟩
  given := hgiven

/-- The transcript plays no part. -/
theorem Holds.observed (h : Holds mode w d name page) (ho : d.Observed d') :
    Holds mode w d' name page := by
  obtain ⟨_, rfl⟩ := ho
  exact ⟨h.1, h.2, fun t ht => ⟨(h.knows t ht).1, (h.knows t ht).2, (h.knows t ht).3⟩, h.4⟩

/-- All databases hold their pages. -/
structure Tracks (mode : WriteMode) (w : Writer) (d : Device) (pages : String → Page) : Prop where
  sameMode : w.mode = mode
  holds : ∀ name, Holds mode w d name (pages name)

/-- Nothing is opened at the start. -/
theorem tracks_start (mode : WriteMode) (d : Device) :
    Tracks mode { mode } d fun name => { records := d.contents name } where
  sameMode := rfl
  holds _ := ⟨rfl, fun _ => ⟨rfl, rfl⟩, nofun, fun _ => List.nil_subset _⟩

/-! ## Opening a database -/

/-- What reaching a database leads to: it is opened, and the writer remembers it. -/
structure Reached (mode : WriteMode) (page : Page) (w : Writer) (d : Device) (n : Nat)
    (name : String) (t : Target) (w' : Writer) (d' : Device) : Prop
    extends Touches w d n name w' d' where
  holds : Holds mode w' d' name (page.opening mode)
  target : w'.target? name = some t
  /-- A table that is stale was fetched for a record before. -/
  reopened : t.stale = true → page.opened = true
  counts : w'.written = w.written ∧ w'.skipped = w.skipped

/-- What a device that was only observed and a writer that remembers one more lead to. -/
theorem touches_setTarget (hl : d.Leaves d' name) (hd : d'.Sound n) (t : Target) :
    Touches w d n name (w.setTarget name t) d' :=
  ⟨hd, rfl, hl, fun other hne => by rw [target?_setTarget, if_neg hne]⟩

theorem reach_spec (hd : d.Sound n) (hmode : w.mode = mode) (hh : Holds mode w d db.name page)
    (hdb : d.named? db.name = some db) (ho : db.openingRefusal mode page = none) :
    ∃ t w' d', w.reach session db.name d = (.ok t, w', d') ∧
      Reached mode page w d n db.name t w' d' := by
  cases htarget : w.target? db.name with
  | some t =>
    -- opened before, which is not done twice
    have hopening : page.opening mode = page := Page.opening_of_opened (hh.knows t htarget).opened
    exact ⟨t, w, d, by simp [reach, htarget],
      ⟨hd, rfl, (observed_self d).leaves _, fun _ _ => rfl⟩, hopening.symm ▸ hh, htarget,
      fun _ => (hh.knows t htarget).opened, rfl, rfl⟩
  | none =>
    obtain ⟨hunopened, hungiven⟩ := hh.unopened htarget
    have hcontents := hh.contents
    rw [contents_of_named? hdb] at hcontents
    obtain ⟨id, e, hrun, hid⟩ := hd.databaseId hdb
    have hd' := (sound_logged (e := e)).mpr hd
    have hseen : d.Observed (d.logged e) := (observed_self d).logged e
    have hlast : (0 : UniqueId) = (page.opening mode).given.headD 0 := by
      simp [Page.opening, hungiven]
    have hgiven : mode = .addAsNew → (page.opening mode).given ⊆ (page.opening mode).uniqueIds :=
      fun _ => by simp [Page.opening, hungiven]
    by_cases herase : mode = .eraseAll
    · -- the database is cleared, and an empty table is true of it
      rw [Database.openingRefusal, if_pos ⟨herase, hunopened⟩] at ho
      obtain ⟨d', hclear, hsound, hc⟩ := hd'.clearDatabase hid ho
      have hpage : (page.opening mode).records = [] := by
        simp [Page.opening, herase, hunopened]
      let t : Target := ⟨id, {}, false⟩
      have hleaves := (hseen.leaves db.name).trans (hc.leaves hd'.proper)
      refine ⟨t, w.setTarget db.name t, d', by simp [reach, htarget, hrun, hmode, herase, hclear, t],
        touches_setTarget hleaves hsound t, ?_, ?_, fun h => absurd h Bool.false_ne_true, rfl, rfl⟩
      · exact holds_setTarget hc _ t rfl hlast (fun _ => rfl) hpage.symm rfl hgiven
      · rw [target?_setTarget, if_pos rfl]
    · rw [Database.openingRefusal, if_neg fun h => herase h.1] at ho
      obtain ⟨e', htable⟩ := hd'.slotTable hid ho
      have hpage : (page.opening mode).records = db.records.values := by
        simp [Page.opening, herase, hcontents]
      let t : Target := ⟨id, db.table, false⟩
      have hseen := hseen.logged e'
      refine ⟨t, w.setTarget db.name t, _, by simp [reach, htarget, hrun, hmode, herase, htable, t],
        touches_setTarget (hseen.leaves _) (hseen.sound hd) t, ?_, ?_,
        fun h => absurd h Bool.false_ne_true, rfl, rfl⟩
      · exact holds_setTarget (hd'.proper.changed_self hid).logged _ t rfl hlast (fun _ => rfl)
          hpage.symm rfl hgiven
      · rw [target?_setTarget, if_pos rfl]

/-- A database that was reached is on the device and holds the opened page. -/
theorem Reached.database {t : Target} (hr : Reached mode page w d n name t w' d') :
    ∃ x, d'.database? t.id = some x ∧ x.name = name ∧
      x.records.values = (page.opening mode).records ∧
      (t.stale = false → t.table.ids = x.table.ids) := by
  obtain ⟨-, -, x, hx, hxn, hids⟩ := hr.holds.knows t hr.target
  refine ⟨x, hx, hxn, ?_, hids⟩
  rw [← contents_of_named? (hr.sound.proper.named?_of_database? hx), hxn, hr.holds.contents]

/-- It has the faults it had. -/
theorem Touches.bare {x : Database} (ht : Touches w d n name w' d')
    (hdb : d.named? name = some db) (hx : d'.database? id = some x) (hxn : x.name = name) :
    x.bare = db.bare := by
  have hnamed := ht.sound.proper.named?_of_database? hx
  rw [hxn] at hnamed
  exact ht.leaves.bare_of_named? hdb hnamed

/-- A table that is not fresh is fetched again, so that it is true of the device. -/
theorem freshTarget_spec (hd : d.Sound n) (hmode : w.mode = mode)
    (hh : Holds mode w d db.name page) (hdb : d.named? db.name = some db)
    (ho : db.openingRefusal mode page = none) :
    ∃ t w' d', w.freshTarget session db.name d = (.ok t, w', d') ∧ t.stale = false ∧
      Reached mode page w d n db.name t w' d' := by
  obtain ⟨t, w₁, d₁, hreach, hr⟩ := reach_spec hd hmode hh hdb ho
  cases hstale : t.stale with
  | false => exact ⟨t, w₁, d₁, by simp [freshTarget, hreach, hstale], hstale, hr⟩
  | true =>
    -- the page is as it was; only what the writer remembers is made true again
    have hopened := hr.reopened hstale
    obtain ⟨x, hx, hxn, hrecords, -⟩ := hr.database
    have hbare := hr.toTouches.bare hdb hx hxn
    have ht : x.tableRefusal = none := by
      rw [Database.openingRefusal, if_neg (by simp [hopened])] at ho
      exact (Database.refusal_of_bare (c := .slotTable 0) hbare).trans ho
    obtain ⟨e, htable⟩ := hr.sound.slotTable hx ht
    let fresh : Target := { t with table := t.table.refresh x.table, stale := false }
    have hseen := (observed_self d₁).logged e
    have htouches := touches_setTarget (w := w₁) (hseen.leaves db.name) (hseen.sound hr.sound) fresh
    refine ⟨fresh, w₁.setTarget db.name fresh, d₁.logged e, by
      simp [freshTarget, hreach, hstale, htable, fresh], rfl, hr.toTouches.trans htouches, ?_, ?_,
      fun h => absurd h Bool.false_ne_true, hr.counts⟩
    · have hself := (hr.sound.proper.changed_self hx).logged (e := e)
      rw [← hxn]
      exact holds_setTarget hself _ fresh rfl (hr.holds.knows t hr.target).lastNewId
        (fun _ => rfl) hrecords rfl hr.holds.given
    · rw [target?_setTarget, if_pos rfl]

/-! ## One record -/

/-- The writer with one more effect counted. -/
def tally (w : Writer) : Effect → Writer
  | .written => { w with written := w.written + 1 }
  | .leftAlone => { w with skipped := w.skipped + 1 }
  | .refused _ => w

theorem written_tally (w : Writer) (effect : Effect) :
    (w.tally effect).written = w.written + [effect].count .written := by
  cases effect <;> rfl

theorem skipped_tally (w : Writer) (effect : Effect) :
    (w.tally effect).skipped = w.skipped + [effect].count .leftAlone := by
  cases effect <;> rfl

@[simp] theorem target?_tally (w : Writer) (effect : Effect) (name : String) :
    (w.tally effect).target? name = w.target? name := by
  cases effect <;> rfl

@[simp] theorem mode_tally (w : Writer) (effect : Effect) : (w.tally effect).mode = w.mode := by
  cases effect <;> rfl

theorem Holds.tally (h : Holds mode w d name page) (effect : Effect) :
    Holds mode (w.tally effect) d name page :=
  ⟨h.1, fun ht => h.2 (by simpa using ht), fun t ht => h.3 t (by simpa using ht), h.4⟩

@[simp] theorem afterMutation_ok (w : Writer) (d : Device) :
    w.afterMutation (.ok (), d) = (Effect.written.answer, w.tally .written, d) := rfl

@[simp] theorem afterMutation_error (w : Writer) (e : Error) (d : Device) :
    w.afterMutation (.error e, d) = ((Effect.refused e).answer, w.tally (.refused e), d) := rfl

/-- What putting a record into the database of this name leads to. -/
structure Outcome (mode : WriteMode) (w : Writer) (d : Device) (n : Nat) (name : String)
    (effect : Effect) (page : Page) (w' : Writer) (d' : Device) : Prop
    extends Touches w d n name w' d' where
  holds : Holds mode w' d' name page
  /-- Behind a mutation, the table counts as stale. -/
  stale : effect = .leftAlone ∨ ∃ t, w'.target? name = some t ∧ t.stale = true
  written : w'.written = w.written + [effect].count .written
  skipped : w'.skipped = w.skipped + [effect].count .leftAlone

section reached
variable {t : Target} {w₁ : Writer} {d₁ : Device} {r : Record} {e : Error}

/-- A database that was reached is changed to hold the page, and its table counts as stale. -/
theorem Reached.outcome {t' : Target} {d₂ : Device} {x y : Database} {after : Page}
    (hr : Reached mode page w d (n + 1) name t w₁ d₁) (hc : d₁.Changed d₂ t'.id x y)
    (hxn : x.name = name) (hsound : d₂.Sound n) (effect : Effect) (hstale : t'.stale = true)
    (hlast : t'.table.lastNewId = after.given.headD 0) (hrecords : y.records.values = after.records)
    (hopened : after.opened = true) (hgiven : mode = .addAsNew → after.given ⊆ after.uniqueIds) :
    Outcome mode w d n name effect after ((w₁.setTarget name t').tally effect) d₂ where
  toTouches := by
    subst hxn
    have htouches := touches_setTarget (w := w₁) (hc.leaves hr.sound.proper) hsound t'
    refine hr.toTouches.trans ⟨hsound, ?_, htouches.leaves, fun other hne => ?_⟩
    · rw [mode_tally, htouches.sameMode]
    · rw [target?_tally, htouches.targets other hne]
  holds := by
    subst hxn
    refine (holds_setTarget hc after t' rfl hlast (fun h => ?_) hrecords hopened hgiven).tally effect
    rw [hstale] at h
    cases h
  stale := Or.inr ⟨t', by rw [target?_tally, target?_setTarget, if_pos rfl], hstale⟩
  written := by rw [written_tally, ← hr.counts.1]; rfl
  skipped := by rw [skipped_tally, ← hr.counts.2]; rfl

/-- A record of a new id is appended. -/
theorem Reached.addRecord (hr : Reached mode page w d (n + 1) name t w₁ d₁)
    (hdb : d.named? name = some db) (hg : db.growthRefusal = none) (after : Page) (t' : Target)
    (hid : t'.id = t.id) (hstale : t'.stale = true)
    (hlast : t'.table.lastNewId = after.given.headD 0) (hname : r.database = name)
    (hnew : r.uniqueId ∉ (page.opening mode).uniqueIds)
    (hrecords : after.records = (page.opening mode).records ++ [r])
    (hopened : after.opened = true) (hgiven : mode = .addAsNew → after.given ⊆ after.uniqueIds) :
    ∃ d', session.addRecord t.id r d₁ = (.ok (), d') ∧
      Outcome mode w d n name .written after ((w₁.setTarget name t').tally .written) d' := by
  obtain ⟨x, hx, hxn, hrec, -⟩ := hr.database
  have hgx : x.growthRefusal = none :=
    (Database.refusal_of_bare (c := .addRecord 0 r) (hr.toTouches.bare hdb hx hxn)).trans hg
  obtain ⟨d₂, y, hadd, hsound, hc, hvalues⟩ := hr.sound.addRecord hx hgx (r := r)
    (by rwa [Database.uniqueIds, hrec]) (by rw [hname, hxn])
  exact ⟨d₂, hadd, hr.outcome (hid ▸ hc) hxn hsound _ hstale hlast
    (by rw [hvalues, hrec, hrecords]) hopened hgiven⟩

/-- The same for a record that keeps its id. -/
theorem Reached.append (hr : Reached mode page w d (n + 1) name t w₁ d₁)
    (hdb : d.named? name = some db) (hg : db.growthRefusal = none) (t' : Target)
    (hid : t'.id = t.id) (hstale : t'.stale = true) (htable : t'.table = t.table)
    (hname : r.database = name) (hmode : mode ≠ .addAsNew)
    (hnew : r.uniqueId ∉ (page.opening mode).uniqueIds) :
    ∃ d', session.addRecord t.id r d₁ = (.ok (), d') ∧
      Outcome mode w d n name .written ((page.opening mode).append r)
        ((w₁.setTarget name t').tally .written) d' :=
  hr.addRecord hdb hg ((page.opening mode).append r) t' hid hstale
    (htable ▸ (hr.holds.knows t hr.target).lastNewId) hname hnew rfl rfl fun h => absurd h hmode

/-- A record of an id there is refused, and nothing changes. -/
theorem Reached.addRecord_duplicate (hr : Reached mode page w d (n + 1) name t w₁ d₁)
    (hdb : d.named? name = some db) (hg : db.growthRefusal = none) (t' : Target)
    (hid : t'.id = t.id) (hstale : t'.stale = true) (htable : t'.table = t.table)
    (hold : r.uniqueId ∈ (page.opening mode).uniqueIds)
    (he : e = .rejected s!"duplicate unique ID {r.uniqueId.show}") :
    ∃ d', session.addRecord t.id r d₁ = (.error e, d') ∧
      Outcome mode w d n name (.refused e) (page.opening mode)
        ((w₁.setTarget name t').tally (.refused e)) d' := by
  obtain ⟨x, hx, hxn, hrec, -⟩ := hr.database
  have hgx : x.growthRefusal = none :=
    (Database.refusal_of_bare (c := .addRecord 0 r) (hr.toTouches.bare hdb hx hxn)).trans hg
  obtain ⟨ex, hadd⟩ := hr.sound.addRecord_duplicate hx hgx (r := r)
    (by rwa [Database.uniqueIds, hrec])
  have hself := (hr.sound.proper.changed_self hx).logged (e := ex)
  have hlast := (hr.holds.knows t hr.target).lastNewId
  exact ⟨_, he ▸ hadd, hr.outcome (hid ▸ hself) hxn
    (sound_logged.mpr (hr.sound.mono (Nat.le_succ n))) _ hstale (htable ▸ hlast) hrec rfl
    hr.holds.given⟩

/-- A record at the slot of its id is replaced. -/
theorem Reached.writeRecord (hr : Reached mode page w d (n + 1) name t w₁ d₁)
    (hdb : d.named? name = some db) (hw : db.writeRefusal = none) {slot : Slot} (t' : Target)
    (hid : t'.id = t.id) (hfresh : t.stale = false) (hstale : t'.stale = true)
    (htable : t'.table = t.table) (hname : r.database = name)
    (hslot : t.table.slotOf? r.uniqueId = some slot) :
    ∃ d', session.writeRecord t.id slot r d₁ = (.ok (), d') ∧
      Outcome mode w d n name .written ((page.opening mode).replace r)
        ((w₁.setTarget name t').tally .written) d' := by
  obtain ⟨x, hx, hxn, hrec, hids⟩ := hr.database
  have hwx : x.writeRefusal = none :=
    (Database.refusal_of_bare (c := .clearDatabase 0) (hr.toTouches.bare hdb hx hxn)).trans hw
  obtain ⟨old, hold, hoid⟩ : ∃ old, x.records.get? slot = some old ∧
      old.uniqueId = r.uniqueId := by
    have hat := SlotTable.slotOf?_eq_some hslot
    rw [hids hfresh] at hat
    exact Slots.get?_map_eq_some hat
  obtain ⟨d₂, y, hwrite, hsound, hc, hvalues⟩ := hr.sound.writeRecord hx hwx hold hoid
    (by rw [hname, hxn])
  have hlast := (hr.holds.knows t hr.target).lastNewId
  refine ⟨d₂, hwrite, hr.outcome (hid ▸ hc) hxn hsound _ hstale (htable ▸ hlast) ?_ rfl ?_⟩
  · rw [hvalues, hrec]
    rfl
  · intro hm
    rw [Page.uniqueIds_replace]
    exact hr.holds.given hm

/-- A record whose id is there may be left alone. -/
theorem Reached.leftAlone (hr : Reached mode page w d (n + 1) name t w₁ d₁) :
    Outcome mode w d n name .leftAlone (page.opening mode) (w₁.tally .leftAlone) d₁ where
  sound := hr.sound.mono (Nat.le_succ n)
  sameMode := hr.sameMode
  leaves := hr.leaves
  targets := hr.targets
  holds := hr.holds.tally .leftAlone
  stale := Or.inl rfl
  written := by rw [written_tally, hr.counts.1]
  skipped := by rw [skipped_tally, hr.counts.2]

/-- A slot is found for the ids that are there. -/
theorem Reached.slotOf?_eq_none_iff (hr : Reached mode page w d n name t w₁ d₁)
    (hfresh : t.stale = false) {u : UniqueId} :
    t.table.slotOf? u = none ↔ u ∉ (page.opening mode).uniqueIds := by
  obtain ⟨x, -, -, hrec, hids⟩ := hr.database
  rw [SlotTable.slotOf?_eq_none_iff, hids hfresh, Page.uniqueIds, ← hrec]
  exact Iff.of_eq (congrArg (u ∉ ·) (Slots.values_map _ _))

/-- The id given out is the next one of the page. -/
theorem Reached.allocate_eq (hr : Reached mode page w d n name t w₁ d₁)
    (hfresh : t.stale = false) : t.table.allocate.1 = (page.opening mode).nextId := by
  obtain ⟨x, -, -, hrec, hids⟩ := hr.database
  have hvalues : t.table.ids.values = (page.opening mode).uniqueIds := by
    rw [hids hfresh, Page.uniqueIds, ← hrec]
    exact Slots.values_map _ _
  have hsize : t.table.size = (page.opening mode).records.length := by
    rw [SlotTable.size, ← Slots.length_values, hvalues, Page.uniqueIds, List.length_map]
  rw [Page.nextId, ← hvalues, ← hsize, ← (hr.holds.knows t hr.target).lastNewId]
  rfl

end reached

/-- Putting a record into a database whose faults do not refuse it does to its page what the mode
says. -/
theorem put_spec {r : Record} (hd : d.Sound (n + 1)) (hmode : w.mode = mode)
    (hh : Holds mode w d r.database page) (hdb : d.named? r.database = some db)
    (ho : db.openingRefusal mode page = none)
    (hm : db.mutationRefusal mode (page.opening mode) r = none) :
    ∃ w' d', w.put session r d = ((page.merge mode page.nextId r).1.answer, w', d') ∧
      Outcome mode w d n r.database (page.merge mode page.nextId r).1
        (page.merge mode page.nextId r).2 w' d' := by
  obtain ⟨-, hname⟩ := named?_mem hdb
  obtain ⟨t, w₁, d₁, hput, hfresh, hr⟩ := freshTarget_spec hd hmode
    (show Holds mode w d db.name page from hname ▸ hh)
    (show d.named? db.name = some db from hname ▸ hdb) ho
  rw [hname] at hput hr
  have hmode₁ := hr.sameMode.trans hmode
  have hslot := hr.slotOf?_eq_none_iff hfresh (u := r.uniqueId)
  -- the target as every mutation leaves it
  let stale : Target := { t with stale := true }
  cases mode with
  | eraseAll =>
    by_cases hu : r.uniqueId ∈ (page.opening .eraseAll).uniqueIds
    · obtain ⟨d₂, hadd, ho⟩ := hr.addRecord_duplicate hdb hm stale rfl rfl rfl hu rfl
      have hmerge : page.merge .eraseAll page.nextId r
          = (.refused (.rejected s!"duplicate unique ID {r.uniqueId.show}"),
            page.opening .eraseAll) := if_pos hu
      rw [hmerge]
      exact ⟨_, d₂, by simp [put, hput, hmode₁, hadd, stale], ho⟩
    · obtain ⟨d₂, hadd, ho⟩ := hr.append hdb hm stale rfl rfl rfl rfl (by decide) hu
      rw [Page.merge_of_notMem (by decide) hu]
      exact ⟨_, d₂, by simp [put, hput, hmode₁, hadd, stale], ho⟩
  | addAndOverwrite =>
    by_cases hu : r.uniqueId ∈ (page.opening .addAndOverwrite).uniqueIds
    · rw [Database.mutationRefusal, if_pos hu] at hm
      obtain ⟨slot, hat⟩ := Option.ne_none_iff_exists'.mp fun h => hslot.mp h hu
      obtain ⟨d₂, hwrite, ho⟩ := hr.writeRecord hdb hm stale rfl hfresh rfl rfl rfl hat
      have hmerge : page.merge .addAndOverwrite page.nextId r
          = (.written, (page.opening .addAndOverwrite).replace r) := if_pos hu
      rw [hmerge]
      exact ⟨_, d₂, by simp [put, hput, hmode₁, hat, hwrite, stale], ho⟩
    · rw [Database.mutationRefusal, if_neg hu] at hm
      obtain ⟨d₂, hadd, ho⟩ := hr.append hdb hm stale rfl rfl rfl rfl (by decide) hu
      rw [Page.merge_of_notMem (by decide) hu]
      exact ⟨_, d₂, by simp [put, hput, hmode₁, hslot.mpr hu, hadd, stale], ho⟩
  | addOnly =>
    by_cases hu : r.uniqueId ∈ (page.opening .addOnly).uniqueIds
    · obtain ⟨slot, hat⟩ := Option.ne_none_iff_exists'.mp fun h => hslot.mp h hu
      have hmerge : page.merge .addOnly page.nextId r
          = (.leftAlone, page.opening .addOnly) := if_pos hu
      rw [hmerge]
      exact ⟨w₁.tally .leftAlone, d₁,
        by simp [put, hput, hmode₁, hat, tally, Effect.answer], hr.leftAlone⟩
    · rw [Database.mutationRefusal, if_neg hu] at hm
      obtain ⟨d₂, hadd, ho⟩ := hr.append hdb hm stale rfl rfl rfl rfl (by decide) hu
      rw [Page.merge_of_notMem (by decide) hu]
      exact ⟨_, d₂, by simp [put, hput, hmode₁, hslot.mpr hu, hadd, stale], ho⟩
  | addAsNew =>
    have hnext : page.nextId = (page.opening .addAsNew).nextId := by
      rw [Page.opening_of_keeping (by decide)]
      rfl
    have hfree := hr.holds.nextId_fresh rfl
    have hid := hr.allocate_eq hfresh
    rw [hnext]
    obtain ⟨d₂, hadd, ho⟩ := hr.addRecord hdb hm
      ((page.opening .addAsNew).appendAs (page.opening .addAsNew).nextId r)
      { stale with table := t.table.allocate.2 } rfl rfl hid
      (show (r.withUniqueId (page.opening .addAsNew).nextId).database = r.database from rfl)
      hfree.absent rfl rfl fun _ id hid => by
        rw [Page.uniqueIds_appendAs]
        rcases List.mem_cons.mp hid with rfl | hid
        · exact List.mem_append_right _ List.mem_cons_self
        · exact List.mem_append_left _ (hr.holds.given rfl hid)
    rw [← hid] at hadd ho ⊢
    exact ⟨_, d₂, by simp [put, hput, hmode₁, hadd, stale, Page.merge], ho⟩

/-! ## A record that a fault refuses -/

/-- What the writer counts as fresh of an opened database, the database has not refused. -/
def Unstale (w : Writer) (db : Database) : Prop :=
  ∀ t, w.target? db.name = some t → t.stale = false → db.tableRefusal = none

theorem Unstale.of_bare (h : w.Unstale db) (hbare : new.bare = db.bare) : w.Unstale new := by
  intro t htarget hfresh
  rw [Database.name_of_bare hbare] at htarget
  have htable := h t htarget hfresh
  exact (Database.refusal_of_bare (c := .slotTable 0) hbare).trans htable

/-- A database that cannot be opened, or whose slot table cannot be fetched again, stays as it is,
and so does what the writer remembers. -/
theorem freshTarget_refused {e : Error} (hd : d.Sound n) (hmode : w.mode = mode)
    (hh : Holds mode w d db.name page) (hu : w.Unstale db) (hdb : d.named? db.name = some db)
    (ho : db.openingRefusal mode page = some e) :
    ∃ d', w.freshTarget session db.name d = (.error e, w, d') ∧ d.Observed d' := by
  cases htarget : w.target? db.name with
  | some t =>
    have hknows := hh.knows t htarget
    rw [Database.openingRefusal, if_neg (by simp [hknows.opened])] at ho
    have hstale : t.stale = true := by
      by_contra hstale
      rw [hu t htarget (eq_false_of_ne_true hstale)] at ho
      cases ho
    obtain ⟨x, hx, hxn, -⟩ := hknows.database
    obtain rfl : x = db := by
      have hnamed := hd.proper.named?_of_database? hx
      rw [hxn, hdb] at hnamed
      exact (Option.some.inj hnamed).symm
    obtain ⟨d', htable, hseen⟩ := hd.refused hx (c := .slotTable t.id) rfl ho
    rw [← Session.slotTable] at htable
    exact ⟨d', by simp [freshTarget, reach, htarget, hstale, htable], hseen⟩
  | none =>
    obtain ⟨hunopened, -⟩ := hh.unopened htarget
    obtain ⟨id, ex, hrun, hid⟩ := hd.databaseId hdb
    have hd' := (sound_logged (e := ex)).mpr hd
    have hseen := (observed_self d).logged ex
    by_cases herase : mode = .eraseAll
    · rw [Database.openingRefusal, if_pos ⟨herase, hunopened⟩] at ho
      obtain ⟨d', hclear, hseen'⟩ := hd'.refused hid (c := .clearDatabase id) rfl ho
      rw [← Session.clearDatabase] at hclear
      exact ⟨d', by simp [freshTarget, reach, htarget, hrun, hmode, herase, hclear],
        hseen.trans hseen'⟩
    · rw [Database.openingRefusal, if_neg fun h => herase h.1] at ho
      obtain ⟨d', htable, hseen'⟩ := hd'.refused hid (c := .slotTable id) rfl ho
      rw [← Session.slotTable] at htable
      exact ⟨d', by simp [freshTarget, reach, htarget, hrun, hmode, herase, htable],
        hseen.trans hseen'⟩

/-- A refused mutation of a database that was reached leaves it as it is. -/
theorem Reached.refused {t : Target} {w₁ : Writer} {d₁ : Device} {c : Command} {e : Error}
    (hr : Reached mode page w d (n + 1) name t w₁ d₁) (hdb : d.named? name = some db)
    (hc : c.database? = some t.id) (he : db.refusal c = some e) (t' : Target) :
    ∃ d', session.run c d₁ = (.error e, d') ∧ Touches w d n name (w₁.setTarget name t') d' ∧
      d'.contents name = (page.opening mode).records := by
  obtain ⟨x, hx, hxn, -⟩ := hr.database
  have hbare := hr.toTouches.bare hdb hx hxn
  obtain ⟨d', hrun, hseen⟩ := hr.sound.refused hx hc
    ((Database.refusal_of_bare hbare).trans he)
  have hsound := (hseen.sound hr.sound).mono (Nat.le_succ n)
  refine ⟨d', hrun, hr.toTouches.trans (touches_setTarget (hseen.leaves name) hsound t'), ?_⟩
  exact (hr.holds.observed hseen).contents

/-- The record is refused, the database having been opened for it. -/
theorem put_refused {r : Record} {e : Error} (hd : d.Sound (n + 1)) (hmode : w.mode = mode)
    (hh : Holds mode w d r.database page) (hdb : d.named? r.database = some db)
    (ho : db.openingRefusal mode page = none)
    (hm : db.mutationRefusal mode (page.opening mode) r = some e) :
    ∃ w' d', w.put session r d = (.error e, w', d') ∧ Touches w d n r.database w' d' ∧
      d'.contents r.database = (page.opening mode).records := by
  obtain ⟨-, hname⟩ := named?_mem hdb
  obtain ⟨t, w₁, d₁, hput, hfresh, hr⟩ := freshTarget_spec hd hmode
    (show Holds mode w d db.name page from hname ▸ hh)
    (show d.named? db.name = some db from hname ▸ hdb) ho
  rw [hname] at hput hr
  have hmode₁ := hr.sameMode.trans hmode
  have hslot := hr.slotOf?_eq_none_iff hfresh (u := r.uniqueId)
  -- the target as every mutation leaves it
  let stale : Target := { t with stale := true }
  have hadd : db.growthRefusal = some e → ∀ x t', ∃ d',
      session.addRecord t.id x d₁ = (.error e, d') ∧
      Touches w d n r.database (w₁.setTarget r.database t') d' ∧
      d'.contents r.database = (page.opening mode).records := fun hg x t' =>
    hr.refused hdb (c := .addRecord t.id x) rfl hg t'
  cases mode with
  | eraseAll =>
    obtain ⟨d₂, hadd, ht, hcontents⟩ := hadd hm r stale
    refine ⟨_, d₂, ?_, ht, hcontents⟩
    simp [put, hput, hmode₁, hadd, stale, Effect.answer, tally]
  | addAndOverwrite =>
    by_cases hu : r.uniqueId ∈ (page.opening .addAndOverwrite).uniqueIds
    · rw [Database.mutationRefusal, if_pos hu] at hm
      obtain ⟨slot, hat⟩ := Option.ne_none_iff_exists'.mp fun h => hslot.mp h hu
      obtain ⟨d₂, hwrite, ht, hcontents⟩ :=
        hr.refused hdb (c := .writeRecord t.id slot r) rfl hm stale
      rw [← Session.writeRecord] at hwrite
      refine ⟨_, d₂, ?_, ht, hcontents⟩
      simp [put, hput, hmode₁, hat, hwrite, stale, Effect.answer, tally]
    · rw [Database.mutationRefusal, if_neg hu] at hm
      obtain ⟨d₂, hadd, ht, hcontents⟩ := hadd hm r stale
      refine ⟨_, d₂, ?_, ht, hcontents⟩
      simp [put, hput, hmode₁, hslot.mpr hu, hadd, stale, Effect.answer, tally]
  | addOnly =>
    by_cases hu : r.uniqueId ∈ (page.opening .addOnly).uniqueIds
    · rw [Database.mutationRefusal, if_pos hu] at hm
      cases hm
    · rw [Database.mutationRefusal, if_neg hu] at hm
      obtain ⟨d₂, hadd, ht, hcontents⟩ := hadd hm r stale
      refine ⟨_, d₂, ?_, ht, hcontents⟩
      simp [put, hput, hmode₁, hslot.mpr hu, hadd, stale, Effect.answer, tally]
  | addAsNew =>
    obtain ⟨d₂, hadd, ht, hcontents⟩ := hadd hm (r.withUniqueId t.table.allocate.1)
      { stale with table := t.table.allocate.2 }
    refine ⟨_, d₂, ?_, ht, hcontents⟩
    simp [put, hput, hmode₁, hadd, stale, Effect.answer, tally]

/-- Putting a record into a database with faults does to it what these make of the record.  Unless
it is refused, the writer can go on with the database. -/
theorem put_take {r : Record} (hd : d.Sound (n + 1)) (hmode : w.mode = mode)
    (hh : Holds mode w d r.database page) (hdb : d.named? r.database = some db)
    (hu : w.Unstale db) :
    ∃ w' d', w.put session r d = ((db.take mode page r).1.answer, w', d') ∧
      Touches w d n r.database w' d' ∧
      d'.contents r.database = (db.take mode page r).2.records ∧
      ((∀ e, (db.take mode page r).1 ≠ .refused e) →
        Holds mode w' d' r.database (db.take mode page r).2 ∧ w'.Unstale db) := by
  obtain ⟨-, hname⟩ := named?_mem hdb
  cases ho : db.openingRefusal mode page with
  | some e =>
    have htake : db.take mode page r = (.refused e, page) := by simp only [Database.take, ho]
    obtain ⟨d', hfresh, hseen⟩ := freshTarget_refused hd hmode (hname ▸ hh) hu
      (show d.named? db.name = some db from hname ▸ hdb) ho
    rw [hname] at hfresh
    rw [htake]
    refine ⟨w, d', ?_, ⟨(hseen.sound hd).mono (Nat.le_succ n), rfl, hseen.leaves _, fun _ _ => rfl⟩,
      (hh.observed hseen).contents, fun h => absurd rfl (h e)⟩
    simp [put, hfresh, Effect.answer]
  | none =>
    cases hm : db.mutationRefusal mode (page.opening mode) r with
    | some e =>
      have htake : db.take mode page r = (.refused e, page.opening mode) := by
        simp only [Database.take, ho, hm]
      obtain ⟨w', d', hput, ht, hcontents⟩ := put_refused hd hmode hh hdb ho hm
      rw [htake]
      exact ⟨w', d', hput, ht, hcontents, fun h => absurd rfl (h e)⟩
    | none =>
      rw [Database.take_of_refusal_eq_none ho hm]
      obtain ⟨w', d', hput, hout⟩ := put_spec hd hmode hh hdb ho hm
      refine ⟨w', d', hput, hout.toTouches, hout.holds.contents, fun _ => ⟨hout.holds, ?_⟩⟩
      intro t ht hfresh
      rw [hname] at ht
      rcases hout.stale with hleft | ⟨t', ht', hstale⟩
      · -- only adding leaves a record alone, and it has fetched the table
        have hmode := Page.merge_leftAlone (Prod.ext hleft rfl)
        rw [Database.openingRefusal, if_neg fun h => by simp [hmode] at h] at ho
        exact ho
      · rw [ht] at ht'
        rw [Option.some.inj ht', hstale] at hfresh
        cases hfresh

/-- A record for a database the device does not have changes nothing. -/
theorem put_missing {r : Record} (hd : d.Sound n) (hh : Holds mode w d r.database page)
    (hdb : d.named? r.database = none) : ∃ e, w.put session r d
      = ((Effect.refused (.databaseNotFound r.database)).answer, w, d.logged e) := by
  have htarget : w.target? r.database = none := by
    rw [Option.eq_none_iff_forall_ne_some]
    intro t h
    obtain ⟨x, hx, hxn, -⟩ := (hh.knows t h).database
    rw [← hxn, hd.proper.named?_of_database? hx] at hdb
    cases hdb
  obtain ⟨e, hid⟩ := hd.databaseId_missing hdb
  exact ⟨e, by simp [put, freshTarget, reach, htarget, hid, Effect.answer]⟩

/-! ## One record after another -/

theorem putAll_cons {σ : Type} {session : Session σ} {r : Record} {s s' : σ}
    {answer : Except Error Unit} (hput : w.put session r s = (answer, w', s')) (rs : List Record) :
    (consumer session).putAll (r :: rs) (w, s)
      = (answer :: ((consumer session).putAll rs (w', s')).1,
          ((consumer session).putAll rs (w', s')).2) := by
  simp only [Consumer.putAll, consumer, hput]

/-- The other databases hold their pages, and the one touched holds a new one. -/
theorem Tracks.touches (ht : Tracks mode w d pages) (h : Touches w d n name w' d')
    (hholds : Holds mode w' d' name page) :
    Tracks mode w' d' (Function.update pages name page) where
  sameMode := h.sameMode.trans ht.sameMode
  holds other := by
    by_cases he : other = name
    · subst he
      rwa [Function.update_self]
    · rw [Function.update_of_ne he]
      exact h.holds (ht.holds other) he

/-- The invariant over a whole run. -/
theorem putAll_spec {names : List String} (rs : List Record) (hd : d.Ready (n + rs.length))
    (ht : Tracks mode w d pages) (hnames : ∀ name, d.named? name = none ↔ name ∉ names) :
    ∃ es pages' w' d', Merged mode names pages rs es pages' ∧
      (consumer session).putAll rs (w, d) = (es.map Effect.answer, w', d') ∧ d'.Ready n ∧
      Tracks mode w' d' pages' ∧ w'.written = w.written + es.count .written ∧
      w'.skipped = w.skipped + es.count .leftAlone ∧
      (∀ name, d'.named? name = none ↔ name ∉ names) ∧
      ∀ name, (∀ r ∈ rs, r.database ≠ name) → d'.named? name = d.named? name := by
  induction rs generalizing w d pages with
  | nil => exact ⟨[], pages, w, d, .nil _, rfl, hd, ht, rfl, rfl, hnames, fun _ _ => rfl⟩
  | cons r rs ih =>
    cases hdb : d.named? r.database with
    | none =>
      -- the room this record does not take is not needed further on
      obtain ⟨e, hput⟩ := put_missing hd.sound (ht.holds _) hdb
      have hseen := (observed_self d).logged e
      obtain ⟨es, pages', w', d', hm, hrun, hd', ht', hw, hs, hn, hothers⟩ :=
        ih (hseen.ready (hd.mono (Nat.le_succ _)))
          ⟨ht.sameMode, fun name => (ht.holds name).observed hseen⟩ hnames
      refine ⟨_, pages', w', d', hm.missing ((hnames _).mp hdb), ?_, hd', ht', ?_, ?_, hn, ?_⟩
      · rw [putAll_cons hput, hrun]
        rfl
      · simpa using hw
      · simpa using hs
      · exact fun name h => hothers name fun x hx => h x (List.mem_cons_of_mem _ hx)
    | some db =>
      have hwilling := hd.willing_database hdb
      obtain ⟨w₁, d₁, hput, ho⟩ := put_spec (n := n + rs.length) hd.sound ht.sameMode
        (ht.holds _) hdb (hwilling.openingRefusal _ _) (hwilling.mutationRefusal _ _ _)
      obtain ⟨es, pages', w', d', hm, hrun, hd', ht', hw, hs, hn, hothers⟩ :=
        ih (ho.leaves.ready hd ho.sound) (ht.touches ho.toTouches ho.holds)
          fun name => (ho.leaves.named?_eq_none_iff name).trans (hnames name)
      have hpresent : r.database ∈ names := by
        by_contra h
        rw [(hnames _).mpr h] at hdb
        cases hdb
      refine ⟨_, pages', w', d', hm.cons _ hpresent (ht.holds _).nextId_fresh, ?_, hd', ht', ?_, ?_,
        hn, ?_⟩
      · rw [putAll_cons hput, hrun]
        rfl
      · rw [hw, ho.written, Nat.add_assoc, ← List.count_append]
        rfl
      · rw [hs, ho.skipped, Nat.add_assoc, ← List.count_append]
        rfl
      · intro name h
        rw [hothers name fun x hx => h x (List.mem_cons_of_mem _ hx),
          ho.leaves.named? name (Ne.symm (h r List.mem_cons_self))]

/-- Records for databases that are there, no two of one database with one id, are all taken, and
each database comes to hold what the mode prescribes. -/
theorem takes_prescribed (mode : WriteMode) (rs : List Record) (hd : d.Ready rs.length)
    (present : ∀ r ∈ rs, d.named? r.database ≠ none)
    (distinct : ∀ name, ((rs.filter (·.database = name)).map (·.uniqueId)).Nodup) :
    ∃ w' d', (consumer session).Takes ({ mode }, d) rs (w', d') ∧
      (∀ name, d'.named? name = none ↔ d.named? name = none) ∧
      (∀ name, (∀ r ∈ rs, r.database ≠ name) → d'.named? name = d.named? name) ∧
      ∀ name, (∃ r ∈ rs, r.database = name) →
        Prescribed mode (d.contents name) (rs.filter (·.database = name)) (d'.contents name) := by
  obtain ⟨es, pages, w', d', hm, hrun, -, ht, -, -, hnamed, hothers⟩ :=
    putAll_spec rs ((Nat.zero_add rs.length).symm ▸ hd) (tracks_start mode d)
      fun _ => named?_eq_none_iff
  have hpage : ∀ r ∈ rs, Prescribed mode (d.contents r.database)
      (rs.filter (·.database = r.database)) (d'.contents r.database) ∧
      ∀ e ∈ effectsOn r.database rs es, e.answer = .ok () := fun r hr => by
    have hin : r.database ∈ d.databases.map (·.name) := by
      by_contra h
      exact present r hr (named?_eq_none_iff.mpr h)
    rw [(ht.holds _).contents]
    refine (hm.page hin).prescribed (fun h => ?_) (distinct _)
    simpa using List.filter_eq_nil_iff.mp h r hr
  refine ⟨w', d', Consumer.takes_of_putAll hrun ?_, fun name => ?_, hothers, ?_⟩
  · intro a ha
    obtain ⟨e, he, rfl⟩ := List.mem_map.mp ha
    obtain ⟨r, hr, her⟩ := hm.exists_effectsOn he
    exact (hpage r hr).2 e her
  · rw [hnamed, named?_eq_none_iff]
  · rintro name ⟨r, hr, rfl⟩
    exact (hpage r hr).1

/-- What becomes of a device into which these records are restored: a database that none of them
names stays as it is, every other comes to hold what the mode prescribes. -/
structure Restored (mode : WriteMode) (rs : List Record) (d d' : Device) : Prop where
  names : ∀ name, d'.named? name = none ↔ d.named? name = none
  untouched : ∀ name, rs.filter (·.database = name) = [] → d'.named? name = d.named? name
  prescribed : ∀ name, d.named? name ≠ none → rs.filter (·.database = name) ≠ [] →
    Prescribed mode (d.contents name) (rs.filter (·.database = name)) (d'.contents name)

/-- Records whose database is not there are left out, the others are all taken. -/
theorem takes_restored (mode : WriteMode) (rs : List Record) (hd : d.Ready rs.length)
    (distinct : ∀ name, ((rs.filter (·.database = name)).map (·.uniqueId)).Nodup) :
    ∃ w' d', (consumer session).Takes ({ mode }, d)
        (rs.filter fun r => (d.databases.map (·.name)).contains r.database) (w', d') ∧
      Restored mode rs d d' := by
  generalize hkept : (rs.filter fun r => (d.databases.map (·.name)).contains r.database) = kept
  have hpresent : ∀ r ∈ kept, d.named? r.database ≠ none := fun r hr h => by
    rw [← hkept, List.mem_filter, List.contains_iff_mem] at hr
    exact named?_eq_none_iff.mp h hr.2
  have hfilter : ∀ name, d.named? name ≠ none →
      kept.filter (·.database = name) = rs.filter (·.database = name) := fun name h => by
    have hin : name ∈ d.databases.map (·.name) := by
      by_contra hn
      exact h (named?_eq_none_iff.mpr hn)
    rw [← hkept, List.filter_filter]
    refine List.filter_congr fun r _ => ?_
    by_cases he : r.database = name
    · simp only [he, decide_true, List.contains_iff_mem.mpr hin, Bool.and_self]
    · simp [he]
  have hlength : kept.length ≤ rs.length := by
    rw [← hkept]
    exact List.length_filter_le _ _
  have hsub : ∀ name, ((kept.filter (·.database = name)).map (·.uniqueId)).Nodup := fun name =>
    (distinct name).sublist (((hkept ▸ List.filter_sublist).filter _).map _)
  obtain ⟨w', d', htakes, hnames, hothers, hprescribed⟩ :=
    takes_prescribed mode kept (hd.mono hlength) hpresent hsub
  refine ⟨w', d', htakes, hnames, fun name h => hothers name fun r hr he => ?_,
    fun name hname h => ?_⟩
  · rw [← hkept, List.mem_filter] at hr
    simpa [he] using List.filter_eq_nil_iff.mp h r hr.1
  · rw [← hfilter name hname] at h ⊢
    obtain ⟨r, hr⟩ := List.exists_mem_of_ne_nil _ h
    rw [List.mem_filter, decide_eq_true_eq] at hr
    exact hprescribed name ⟨r, hr⟩

/-- **The write modes.**  Whatever records are put into a device without faults, what becomes of
each of them and what every database holds in the end is what the mode says, renumbering or not. -/
theorem putAll_merged (mode : WriteMode) (rs : List Record) {d : Device} (proper : d.Proper)
    (willing : d.Willing) (room : d.Room rs.length) :
    ∃ es pages, Merged mode (d.databases.map (·.name)) (fun name => { records := d.contents name })
        rs es pages ∧
      let (answers, w, d') := (consumer session).putAll rs ({ mode }, d)
      answers = es.map Effect.answer ∧ (∀ name, d'.contents name = (pages name).records) ∧
      (∀ name, (∀ r ∈ rs, r.database ≠ name) → d'.named? name = d.named? name) ∧
      w.written = es.count .written ∧ w.skipped = es.count .leftAlone := by
  have hd : d.Ready (0 + rs.length) := ⟨proper, willing, (Nat.zero_add _).symm ▸ room⟩
  obtain ⟨es, pages, w', d', hm, hrun, -, ht, hw, hs, -, hothers⟩ :=
    putAll_spec rs hd (tracks_start mode d) fun _ => named?_eq_none_iff
  refine ⟨es, pages, hm, ?_⟩
  rw [hrun]
  exact ⟨rfl, fun name => (ht.holds name).contents, hothers, by simpa using hw, by simpa using hs⟩

/-- On a renumbering device with two memos and a task: a memo takes the place of the one of its id,
and another memo of that id the place of this one; another task and a third memo come behind; a
photo is refused, since there is no database of photos. -/
theorem putAll_merged_overwriting :
    let memo (id : UniqueId) (content : List UInt8) : Record := ⟨"Memos", id, 0, ⟨content.toArray⟩⟩
    let task (id : UniqueId) : Record := ⟨"Tasks", id, 0, ⟨#[9]⟩⟩
    let photo : Record := ⟨"Photos", 5, 0, ⟨#[5]⟩⟩
    let d : Device :=
      { databases := [{ name := "Memos", records := Slots.numbered 0 [memo 7 [1], memo 8 [2]] },
          { name := "Tasks", records := Slots.numbered 0 [task 3] }]
        renumbering := true }
    let rs := [memo 7 [3], task 4, photo, memo 9 [], memo 7 [4]]
    (∃ es pages, Merged .addAndOverwrite (d.databases.map (·.name))
        (fun name => { records := d.contents name }) rs es pages ∧
      let (answers, w, d') := (consumer session).putAll rs ({ mode := .addAndOverwrite }, d)
      answers = es.map Effect.answer ∧ (∀ name, d'.contents name = (pages name).records) ∧
      (∀ name, (∀ r ∈ rs, r.database ≠ name) → d'.named? name = d.named? name) ∧
      w.written = es.count .written ∧ w.skipped = es.count .leftAlone) ∧
    let (answers, w, d') := (consumer session).putAll rs ({ mode := .addAndOverwrite }, d)
    answers = [.ok (), .ok (), .error (.databaseNotFound "Photos"), .ok (), .ok ()] ∧
    d'.contents "Memos" = [memo 7 [4], memo 8 [2], memo 9 []] ∧
    d'.contents "Tasks" = [task 3, task 4] ∧ w.written = 4 := by
  intro memo task photo d rs
  exact ⟨putAll_merged .addAndOverwrite rs (by decide) (by decide) (by decide), by decide +kernel⟩

end Palmtop.Device.Writer
