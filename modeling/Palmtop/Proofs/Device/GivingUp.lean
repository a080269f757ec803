import Palmtop.Proofs.Device.Reading
import Palmtop.Proofs.Device.Transcript
import Palmtop.Proofs.Device.Writing

/-! # Giving up a database

The databases of one device are put into another one that has faults, and where a record is refused
its database is given up.  Each database then comes to what its own faults make of its own records
(`Database.takeAll`), and no other database has a part in it: that is what `TakenOver` says, together
with what the device is told of each database.
-/
namespace Palmtop.Device

variable {mode : WriteMode} {d d' : Device} {n : Nat} {name : String} {db : Database}

/-- The databases in which a record is refused when the records of others are put into them, in the
order of these, and why. -/
def refusals (d : Device) (mode : WriteMode) (dbs : List Database) : List (String × Error) :=
  dbs.filterMap fun a => (d.named? a.name).bind fun db =>
    (db.takeAll mode { records := db.records.values } a.records.values).1.map (a.name, ·)

/-- No command that concerns the database was refused. -/
def Untroubled (d : Device) (name : String) (news : List Exchange) : Prop :=
  ∀ e ∈ news, d.Concerns name e.command → e.accepted = true

/-- A command that concerns the database was refused, and none concerned it from then on. -/
def BrokenOff (d : Device) (name : String) (news : List Exchange) : Prop :=
  ∃ later e earlier, news = later ++ e :: earlier ∧ d.Concerns name e.command ∧
    e.accepted = false ∧ (∀ x ∈ later, ¬ d.Concerns name x.command) ∧ d.Untroubled name earlier

/-- What was refused concerned the databases given up, and each of these was left alone from then
on. -/
def GaveUp (d : Device) (given : List String) (news : List Exchange) : Prop :=
  ∀ name, (name ∈ given → d.BrokenOff name news) ∧ (name ∉ given → d.Untroubled name news)

/-- What becomes of a device when these databases are put into it and each is given up where a
record of it is refused. -/
structure TakenOver (mode : WriteMode) (dbs : List Database) (d d' : Device) : Prop where
  names : d'.databases.map (·.name) = d.databases.map (·.name)
  untouched : ∀ name ∉ dbs.map (·.name), d'.named? name = d.named? name
  contents : ∀ a ∈ dbs, ∀ db, d.named? a.name = some db → d'.contents a.name
    = (db.takeAll mode { records := db.records.values } a.records.values).2.records
  told : ∃ news, d'.transcript = news ++ d.transcript ∧
    (∀ e ∈ news, ∀ name, d.Concerns name e.command → name ∈ dbs.map (·.name)) ∧
    d.GaveUp ((d.refusals mode dbs).map (·.1)) news

/-! ## Refusals -/

theorem refusals_congr {dbs : List Database}
    (h : ∀ a ∈ dbs, d'.named? a.name = d.named? a.name) :
    d'.refusals mode dbs = d.refusals mode dbs :=
  List.filterMap_congr fun a ha => by rw [h a ha]

theorem refusals_cons_missing {a : Database} (h : d.named? a.name = none) (dbs : List Database) :
    d.refusals mode (a :: dbs) = d.refusals mode dbs := by
  rw [refusals, List.filterMap_cons, h]
  rfl

theorem refusals_cons {a : Database} (h : d.named? a.name = some db) (dbs : List Database) :
    d.refusals mode (a :: dbs)
      = (db.takeAll mode { records := db.records.values } a.records.values).1.toList.map (a.name, ·)
        ++ d.refusals mode dbs := by
  rw [refusals, List.filterMap_cons, h, Option.bind_some]
  cases (db.takeAll mode { records := db.records.values } a.records.values).1 <;> rfl

/-- What is refused and why. -/
theorem mem_refusals_iff {dbs : List Database} {p : String × Error} :
    p ∈ d.refusals mode dbs ↔ ∃ a ∈ dbs, a.name = p.1 ∧ ∃ db, d.named? a.name = some db ∧
      (db.takeAll mode { records := db.records.values } a.records.values).1 = some p.2 := by
  rw [refusals, List.mem_filterMap]
  refine exists_congr fun a => and_congr_right fun _ => ⟨fun h => ?_, ?_⟩
  · obtain ⟨db, hdb, htaken⟩ := Option.bind_eq_some_iff.mp h
    obtain ⟨e, he, rfl⟩ := Option.map_eq_some_iff.mp htaken
    exact ⟨rfl, db, hdb, he⟩
  · rintro ⟨hname, db, hdb, he⟩
    exact Option.bind_eq_some_iff.mpr
      ⟨db, hdb, Option.map_eq_some_iff.mpr ⟨p.2, he, Prod.ext hname rfl⟩⟩

/-- Each database is given up once at most, in the order they came. -/
theorem names_refusals_sublist (d : Device) (mode : WriteMode) (dbs : List Database) :
    ((d.refusals mode dbs).map (·.1)).Sublist (dbs.map (·.name)) := by
  induction dbs with
  | nil => exact .slnil
  | cons a dbs ih =>
    cases hdb : d.named? a.name with
    | none =>
      rw [refusals_cons_missing hdb]
      exact ih.cons _
    | some db =>
      rw [refusals_cons hdb, List.map_append, List.map_cons]
      cases (db.takeAll mode { records := db.records.values } a.records.values).1 with
      | none => exact ih.cons _
      | some e => exact ih.cons_cons _

/-- What has a database given up is not the end of the session. -/
theorem refusals_mild {dbs : List Database} : ∀ p ∈ d.refusals mode dbs, p.2.isFatal = false := by
  intro p hp
  obtain ⟨a, -, -, db, -, he⟩ := mem_refusals_iff.mp hp
  obtain ⟨_, _, _, _, -, -, htake⟩ := Database.exists_of_takeAll_refused (Prod.ext he rfl)
  exact Database.mild_of_take_refused htake

/-! ## Exchanges -/

theorem BrokenOff.append_left {later news : List Exchange} (h : d.BrokenOff name news)
    (hlater : ∀ e ∈ later, ¬ d.Concerns name e.command) : d.BrokenOff name (later ++ news) := by
  obtain ⟨l, e, r, rfl, he, hrefused, hl, hr⟩ := h
  exact ⟨later ++ l, e, r, by simp, he, hrefused,
    fun x hx => (List.mem_append.mp hx).elim (hlater x) (hl x), hr⟩

theorem BrokenOff.append_right {news earlier : List Exchange} (h : d.BrokenOff name news)
    (hearlier : d.Untroubled name earlier) : d.BrokenOff name (news ++ earlier) := by
  obtain ⟨l, e, r, rfl, he, hrefused, hl, hr⟩ := h
  exact ⟨l, e, r ++ earlier, by simp, he, hrefused, hl,
    fun x hx => (List.mem_append.mp hx).elim (hr x) (hearlier x)⟩

theorem Untroubled.append {news earlier : List Exchange} (h : d.Untroubled name news)
    (hearlier : d.Untroubled name earlier) : d.Untroubled name (news ++ earlier) :=
  fun x hx => (List.mem_append.mp hx).elim (h x) (hearlier x)

theorem untroubled_of_not_concerns {news : List Exchange}
    (h : ∀ e ∈ news, ¬ d.Concerns name e.command) : d.Untroubled name news :=
  fun e he hc => absurd hc (h e he)

/-- Exchanges of one database, the last of which may have been refused. -/
theorem gaveUp_of_settled {ok : Bool} {news : List Exchange} (h : Settled ok news)
    (hc : ∀ e ∈ news, d.Concerns name e.command) : d.GaveUp (if ok then [] else [name]) news := by
  intro other
  have hquiet : other ≠ name → d.Untroubled other news := fun hne =>
    untroubled_of_not_concerns fun e he ho => hne (ho.unique (hc e he))
  cases ok with
  | true => exact ⟨nofun, fun _ e he _ => h e he⟩
  | false =>
    refine ⟨fun hin => ?_, fun hout => hquiet fun he => hout (he ▸ List.mem_singleton_self name)⟩
    obtain rfl := List.mem_singleton.mp hin
    cases news with
    | nil => exact h.elim
    | cons e earlier =>
      exact ⟨[], e, earlier, rfl, hc e List.mem_cons_self, h.1, nofun, fun x hx _ => h.2 x hx⟩

/-- Exchanges of some databases, and then of others. -/
theorem GaveUp.append {given given' : List String} {news earlier : List Exchange}
    (h : d.GaveUp given earlier) (h' : d.GaveUp given' news)
    (hothers : ∀ name, (∀ e ∈ earlier, ¬ d.Concerns name e.command) ∨
      ∀ e ∈ news, ¬ d.Concerns name e.command) :
    d.GaveUp (given ++ given') (news ++ earlier) := by
  -- what is not concerned cannot have been given up
  have hout : ∀ {name : String} {names : List String} {es : List Exchange}, d.GaveUp names es →
      (∀ e ∈ es, ¬ d.Concerns name e.command) → name ∉ names := fun hg hc hin => by
    obtain ⟨l, e, r, rfl, he, -⟩ := (hg _).1 hin
    exact hc e (by simp) he
  intro name
  rw [List.mem_append]
  rcases hothers name with hearlier | hnews
  · have hquiet := untroubled_of_not_concerns hearlier
    refine ⟨fun hin => ?_, fun hn => ?_⟩
    · exact ((h' name).1 (hin.resolve_left (hout h hearlier))).append_right hquiet
    · exact ((h' name).2 fun hin => hn (Or.inr hin)).append hquiet
  · refine ⟨fun hin => ?_, fun hn => ?_⟩
    · exact ((h name).1 (hin.resolve_right (hout h' hnews))).append_left hnews
    · exact (untroubled_of_not_concerns hnews).append ((h name).2 fun hin => hn (Or.inl hin))

/-! ## Composition -/

variable {dbs : List Database} {a : Database}

/-- A database that is not there changes nothing. -/
theorem TakenOver.cons_missing (h : TakenOver mode dbs d d') (ha : d.named? a.name = none) :
    TakenOver mode (a :: dbs) d d' where
  names := h.names
  untouched name hn := h.untouched name fun hm => hn (List.mem_cons_of_mem _ hm)
  contents b hb db hdb := by
    rcases List.mem_cons.mp hb with rfl | hb
    · rw [ha] at hdb
      cases hdb
    · exact h.contents b hb db hdb
  told := by
    obtain ⟨news, hnews, hconcerns, hverdict⟩ := h.told
    rw [refusals_cons_missing ha]
    exact ⟨news, hnews, fun e he name hc => List.mem_cons_of_mem _ (hconcerns e he name hc),
      hverdict⟩

/-- One database, and then the others, which have no part in it. -/
theorem TakenOver.cons {d₁ : Device} (h : TakenOver mode dbs d₁ d')
    (hne : ∀ b ∈ dbs, b.name ≠ a.name) (hdb : d.named? a.name = some db)
    (hl : d.Leaves d₁ a.name)
    (hcontents : d₁.contents a.name
      = (db.takeAll mode { records := db.records.values } a.records.values).2.records)
    (hspoke : Spoke a.name d
      (db.takeAll mode { records := db.records.values } a.records.values).1.isNone d₁) :
    TakenOver mode (a :: dbs) d d' where
  names := h.names.trans hl.names
  untouched name hn := by
    rw [List.map_cons, List.mem_cons, not_or] at hn
    rw [h.untouched name hn.2, hl.named? name hn.1]
  contents b hb x hx := by
    rcases List.mem_cons.mp hb with rfl | hb
    · have hnot : b.name ∉ dbs.map (·.name) := fun hm => by
        obtain ⟨c, hc, hcn⟩ := List.mem_map.mp hm
        exact hne c hc hcn
      rw [hdb] at hx
      obtain rfl := Option.some.inj hx
      rw [Device.contents, h.untouched _ hnot]
      exact hcontents
    · exact h.contents b hb x (by rwa [hl.named? _ (hne b hb)])
  told := by
    obtain ⟨hnames, news₁, hnews₁, hconcerns₁, hsettled⟩ := hspoke
    obtain ⟨news₂, hnews₂, hconcerns₂, hgaveUp⟩ := h.told
    have hrefusals : d₁.refusals mode dbs = d.refusals mode dbs :=
      refusals_congr fun b hb => hl.named? _ (hne b hb)
    simp only [hrefusals, GaveUp, BrokenOff, Untroubled, concerns_congr hnames]
      at hconcerns₂ hgaveUp
    -- what is told of the others does not concern this one
    have hothers : ∀ e ∈ news₂, ¬ d.Concerns a.name e.command := fun e he hea => by
      obtain ⟨b, hb, hbn⟩ := List.mem_map.mp (hconcerns₂ e he _ hea)
      exact hne b hb hbn
    refine ⟨news₂ ++ news₁, by rw [hnews₂, hnews₁, List.append_assoc], fun e he name hc => ?_, ?_⟩
    · rcases List.mem_append.mp he with he | he
      · exact List.mem_cons_of_mem _ (hconcerns₂ e he name hc)
      · rw [hc.unique (hconcerns₁ e he)]
        exact List.mem_cons_self
    · have hfirst : d.GaveUp (((db.takeAll mode { records := db.records.values }
          a.records.values).1.toList.map (a.name, ·)).map (·.1)) news₁ := by
        have hgaveUp₁ := gaveUp_of_settled hsettled hconcerns₁
        cases h : (db.takeAll mode { records := db.records.values } a.records.values).1 with
        | none => rwa [h] at hgaveUp₁
        | some e => rwa [h] at hgaveUp₁
      rw [refusals_cons hdb, List.map_append]
      refine hfirst.append hgaveUp fun name => ?_
      by_cases hname : name = a.name
      · exact Or.inr (hname ▸ hothers)
      · exact Or.inl fun e he hen => hname (hen.unique (hconcerns₁ e he))

/-- Asking for the catalog before concerns no database. -/
theorem TakenOver.of_logged (h : TakenOver mode dbs (d.logged ⟨.catalog, true⟩) d') :
    TakenOver mode dbs d d' where
  names := h.names
  untouched := h.untouched
  contents := h.contents
  told := by
    obtain ⟨news, hnews, hconcerns, hgaveUp⟩ := h.told
    have hcatalog : ∀ name, ∀ e ∈ [(⟨.catalog, true⟩ : Exchange)],
        ¬ d.Concerns name e.command := by
      rintro name e he (hc | ⟨id, hc, -⟩)
      · rw [List.mem_singleton.mp he] at hc
        cases hc
      · rw [List.mem_singleton.mp he] at hc
        cases hc
    have hfirst : d.GaveUp [] [⟨.catalog, true⟩] := fun name =>
      ⟨nofun, fun _ => untroubled_of_not_concerns (hcatalog name)⟩
    have hrefusals : (d.logged ⟨.catalog, true⟩).refusals mode dbs = d.refusals mode dbs :=
      refusals_congr fun _ _ => rfl
    have hboth := hfirst.append hgaveUp fun name => Or.inl (hcatalog name)
    rw [List.nil_append, hrefusals] at hboth
    refine ⟨news ++ [⟨.catalog, true⟩], by simp [hnews, logged], fun e he name hc => ?_, hboth⟩
    rcases List.mem_append.mp he with he | he
    · exact hconcerns e he name hc
    · exact absurd hc (hcatalog name e he)

namespace Writer

variable {w : Writer} {page : Page}

/-! ## One database -/

/-- The records of one database are put, up to the first that is refused; what comes behind is put
into what is left. -/
theorem givesUp_block {block rest : List Record} (hblock : ∀ r ∈ block, r.database = name)
    (hrest : ∀ r ∈ rest, r.database ≠ name) (hd : d.Sound (n + block.length))
    (hmode : w.mode = mode) (hh : Holds mode w d name page) (hdb : d.named? name = some db)
    (hu : w.Unstale db) :
    ∃ w' d', Touches w d n name w' d' ∧
      d'.contents name = (db.takeAll mode page block).2.records ∧
      Spoke name d (db.takeAll mode page block).1.isNone d' ∧
      ∀ es v, (consumer session).GivesUp (w', d') rest es v →
        (consumer session).GivesUp (w, d) (block ++ rest)
          ((db.takeAll mode page block).1.toList.map (name, ·) ++ es) v := by
  induction block generalizing w d page db with
  | nil =>
    exact ⟨w, d, ⟨hd, rfl, (observed_self d).leaves name, fun _ _ => rfl⟩, hh.contents,
      spoke_self name d, fun _ _ h => h⟩
  | cons r block ih =>
    obtain rfl := hblock r List.mem_cons_self
    have hblock := fun x hx => hblock x (List.mem_cons_of_mem _ hx)
    obtain ⟨w₁, d₁, hput, ht, hcontents, hgoes⟩ :=
      put_take (n := n + block.length) hd hmode hh hdb hu
    have hspoke := put_spoke (w := w) (r := r) hd.proper fun t ht => by
      obtain ⟨x, hx, hxn, -⟩ := (hh.knows t ht).database
      rw [nameOf?, hx, Option.map_some, hxn]
    rw [hput] at hspoke
    by_cases hrefused : ∃ e, (db.take mode page r).1 = .refused e
    · obtain ⟨e, he⟩ := hrefused
      have htake : db.take mode page r = (.refused e, (db.take mode page r).2) := Prod.ext he rfl
      rw [he] at hput hspoke
      rw [Database.takeAll_cons_refused htake]
      refine ⟨w₁, d₁, ⟨ht.sound.mono (Nat.le_add_right _ _), ht.sameMode, ht.leaves, ht.targets⟩,
        hcontents, hspoke, fun es v h => .refused hput ?_⟩
      have hothers : (block ++ rest).filter (·.database ≠ r.database) = rest := by
        rw [List.filter_append, List.filter_eq_nil_iff.mpr fun x hx => by simp [hblock x hx],
          List.nil_append, List.filter_eq_self.mpr fun x hx => by simpa using hrest x hx]
      exact hothers.symm ▸ h
    · have htaken : ∀ e, (db.take mode page r).1 ≠ .refused e := fun e he => hrefused ⟨e, he⟩
      have hanswer := Effect.answer_eq_ok_iff.mpr htaken
      obtain ⟨hholds, hunstale⟩ := hgoes htaken
      rw [hanswer] at hput hspoke
      rw [Database.takeAll_cons htaken]
      -- the database is still there, with the same faults
      obtain ⟨db₁, hdb₁⟩ := Option.ne_none_iff_exists'.mp fun h => by
        rw [(ht.leaves.named?_eq_none_iff _).mp h] at hdb
        cases hdb
      have hbare := ht.leaves.bare_of_named? hdb hdb₁
      obtain ⟨w', d', ht', hcontents', hspoke', hgives⟩ :=
        ih hblock ht.sound (ht.sameMode.trans hmode) hholds hdb₁ (hunstale.of_bare hbare)
      rw [Database.takeAll_of_bare hbare] at hcontents' hspoke' hgives
      exact ⟨w', d', ht.trans ht', hcontents', hspoke.trans hspoke',
        fun es v h => .taken hput (hgives es v h)⟩

/-! ## One database after another -/

/-- A database that was not opened yet. -/
theorem Holds.unstale {records : List Record} (h : Holds mode w d db.name { records }) :
    w.Unstale db := fun t ht _ => by
  cases (h.knows t ht).opened

theorem givesUp_databases {dbs : List Database} {present : String → Bool}
    (hnames : (dbs.map (·.name)).Nodup)
    (howned : ∀ a ∈ dbs, ∀ r ∈ a.records.values, r.database = a.name)
    (hpresent : ∀ name, present name = true ↔ d.named? name ≠ none)
    (hd : d.Sound (n + (dbs.flatMap (·.records.values)).length)) (hmode : w.mode = mode)
    (hh : ∀ a ∈ dbs, Holds mode w d a.name { records := d.contents a.name }) :
    ∃ w' d', (consumer session).GivesUp (w, d)
        ((dbs.flatMap (·.records.values)).filter (present ·.database)) (d.refusals mode dbs)
        (w', d') ∧ d'.Sound n ∧ TakenOver mode dbs d d' := by
  induction dbs generalizing w d with
  | nil =>
    exact ⟨w, d, .nil _, hd, rfl, fun _ _ => rfl, nofun, [], rfl, nofun,
      fun _ => ⟨nofun, fun _ => nofun⟩⟩
  | cons a dbs ih =>
    rw [List.map_cons, List.nodup_cons] at hnames
    rw [List.flatMap_cons, List.length_append, ← Nat.add_assoc, Nat.add_right_comm] at hd
    have howned' := fun b hb => howned b (List.mem_cons_of_mem _ hb)
    have hne : ∀ b ∈ dbs, b.name ≠ a.name := fun b hb he =>
      hnames.1 (he ▸ List.mem_map_of_mem hb)
    cases hdb : d.named? a.name with
    | none =>
      have hout : a.records.values.filter (present ·.database) = [] := by
        refine List.filter_eq_nil_iff.mpr fun r hr hp => ?_
        rw [howned a List.mem_cons_self r hr] at hp
        exact (hpresent _).mp hp hdb
      obtain ⟨w', d', hgives, hsound, htaken⟩ := ih hnames.2 howned' hpresent
        (hd.mono (Nat.le_add_right _ _)) hmode fun b hb => hh b (List.mem_cons_of_mem _ hb)
      rw [refusals_cons_missing hdb, List.flatMap_cons, List.filter_append, hout]
      exact ⟨w', d', hgives, hsound, htaken.cons_missing hdb⟩
    | some db =>
      obtain ⟨-, hdbn⟩ := named?_mem hdb
      have hblock := howned a List.mem_cons_self
      have hin : a.records.values.filter (present ·.database) = a.records.values := by
        refine List.filter_eq_self.mpr fun r hr => ?_
        rw [hblock r hr, hpresent, hdb]
        exact nofun
      have hrest : ∀ r ∈ (dbs.flatMap (·.records.values)).filter (present ·.database),
          r.database ≠ a.name := fun r hr => by
        obtain ⟨b, hb, hrb⟩ := List.mem_flatMap.mp (List.mem_of_mem_filter hr)
        exact howned' b hb r hrb ▸ hne b hb
      have hholds := hh a List.mem_cons_self
      rw [contents_of_named? hdb] at hholds
      obtain ⟨w₁, d₁, ht, hcontents, hspoke, hgives⟩ :=
        givesUp_block hblock hrest hd hmode hholds hdb (hdbn ▸ hholds).unstale
      obtain ⟨w', d', hgives', hsound, htaken⟩ := ih hnames.2 howned'
        (fun name => (hpresent name).trans (not_congr (ht.leaves.named?_eq_none_iff name)).symm)
        ht.sound (ht.sameMode.trans hmode) fun b hb => by
          have hholds := ht.holds (hh b (List.mem_cons_of_mem _ hb)) (hne b hb)
          rw [Device.contents, ht.leaves.named? _ (hne b hb)]
          exact hholds
      rw [refusals_cons hdb, List.flatMap_cons, List.filter_append, hin,
        ← refusals_congr fun b hb => ht.leaves.named? _ (hne b hb)]
      exact ⟨w', d', hgives _ _ hgives', hsound, htaken.cons hne hdb ht.leaves hcontents hspoke⟩

/-- The databases of a device, put into one with faults that knows of no writer yet. -/
theorem givesUp_allRecords (mode : WriteMode) {s : Device} (hs : s.Proper)
    (hd : d.Sound s.allRecords.length) :
    ∃ w d', (consumer session).GivesUp ({ mode }, d)
        (s.allRecords.filter fun r => (d.databases.map (·.name)).contains r.database)
        (d.refusals mode s.databases) (w, d') ∧ TakenOver mode s.databases d d' := by
  have hpresent : ∀ name, (d.databases.map (·.name)).contains name = true ↔
      d.named? name ≠ none := fun name => by
    rw [List.contains_iff_mem, Ne, named?_eq_none_iff, not_not]
  obtain ⟨w, d', hgives, -, htaken⟩ := givesUp_databases (n := 0) (w := { mode }) hs.names hs.owned
    hpresent (by rw [Nat.zero_add]; exact hd) rfl fun a _ => (tracks_start mode d).holds a.name
  exact ⟨w, d', hgives, htaken⟩

end Writer

end Palmtop.Device
