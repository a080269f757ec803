import Palmtop.Proofs.Device.Writing

/-! # Records that are all taken

Whether a database takes the records put into it is a matter of its faults and of the ids it holds.
So for a whole device (`Admits`): `Writer.putAll_accepted_iff` says that this is when a writer has
no record refused, wherever the device keeps its records.

A database that holds further ids may take what it refused before, but nothing is lost as long as it
takes new records at all (`Database.Grown.takeAll`).
-/
namespace Palmtop.Device

variable {mode : WriteMode} {d d' : Device} {n : Nat} {db : Database} {r : Record}
  {rs : List Record} {pages : String → Page}

/-! ## One database -/

namespace Database

variable {p q : Page}

/-- Faults and ids decide whether a record is taken. -/
theorem taken_iff : (∀ e, (db.take mode p r).1 ≠ .refused e) ↔ db.openingRefusal mode p = none ∧
    db.mutationRefusal mode (p.opening mode) r = none ∧
    (mode = .eraseAll → r.uniqueId ∉ (p.opening mode).uniqueIds) := by
  rw [← Page.merge_taken_iff p.nextId]
  cases ho : db.openingRefusal mode p with
  | some e => simp [take, ho]
  | none =>
    cases hm : db.mutationRefusal mode (p.opening mode) r with
    | some e => simp [take, ho, hm]
    | none => simp [take_of_refusal_eq_none ho hm]

/-- The second page has the ids of the first, and further ones only if the database takes new
records. -/
structure Grown (db : Database) (mode : WriteMode) (p q : Page) : Prop where
  opened : q.opened = p.opened
  kept : (p.opening mode).uniqueIds ⊆ (q.opening mode).uniqueIds
  added : ∀ u ∈ (q.opening mode).uniqueIds, u ∉ (p.opening mode).uniqueIds →
    db.growthRefusal = none

/-- What is taken where there are further ids is taken where there are not. -/
theorem Grown.taken (h : db.Grown mode p q) (keeping : mode ≠ .addAsNew)
    (htaken : ∀ e, (db.take mode q r).1 ≠ .refused e) : ∀ e, (db.take mode p r).1 ≠ .refused e := by
  obtain ⟨ho, hm, hnew⟩ := taken_iff.mp htaken
  have hgrowth : r.uniqueId ∉ (p.opening mode).uniqueIds →
      (r.uniqueId ∉ (q.opening mode).uniqueIds → db.growthRefusal = none) →
      db.growthRefusal = none := by
    intro hp hq
    by_cases hr : r.uniqueId ∈ (q.opening mode).uniqueIds
    · exact h.added _ hr hp
    · exact hq hr
  refine taken_iff.mpr ⟨?_, ?_, fun herase hr => hnew herase (h.kept hr)⟩
  · rwa [openingRefusal, ← h.opened]
  · cases mode with
    | eraseAll => exact hm
    | addAndOverwrite =>
      simp only [mutationRefusal] at hm ⊢
      split
      · rename_i hr
        rwa [if_pos (h.kept hr)] at hm
      · rename_i hr
        refine hgrowth hr fun hq => ?_
        rwa [if_neg hq] at hm
    | addOnly =>
      simp only [mutationRefusal] at hm ⊢
      split
      · rfl
      · rename_i hr
        refine hgrowth hr fun hq => ?_
        rwa [if_neg hq] at hm
    | addAsNew => exact absurd rfl keeping

/-- Both have the id of a record that was taken. -/
theorem Grown.step (h : db.Grown mode p q) (keeping : mode ≠ .addAsNew)
    (htaken : ∀ e, (db.take mode q r).1 ≠ .refused e) :
    db.Grown mode (db.take mode p r).2 (db.take mode q r).2 := by
  rw [take_usual htaken, take_usual (h.taken keeping htaken)]
  have hopening : ∀ x : Page, (x.merge mode x.nextId r).2.opening mode
      = (x.merge mode x.nextId r).2 := fun x => Page.opening_of_opened (Page.opened_merge ..)
  refine ⟨by rw [Page.opened_merge, Page.opened_merge], ?_, fun u hq hp => ?_⟩
  · intro u hu
    rw [hopening, Page.mem_uniqueIds_merge keeping] at hu ⊢
    exact hu.imp_left fun hu => h.kept hu
  · rw [hopening, Page.mem_uniqueIds_merge keeping] at hq hp
    rw [not_or] at hp
    exact h.added u (hq.resolve_right hp.2) hp.1

theorem Grown.takeAll (h : db.Grown mode p q) (keeping : mode ≠ .addAsNew)
    (hall : (db.takeAll mode q rs).1 = none) : (db.takeAll mode p rs).1 = none := by
  induction rs generalizing p q with
  | nil => rfl
  | cons r rs ih =>
    obtain ⟨htaken, hrest⟩ := takeAll_cons_eq_none (Prod.ext hall rfl)
    rw [takeAll_cons (h.taken keeping htaken)]
    exact ih (h.step keeping htaken) (by rw [hrest])

end Database

/-! ## All databases -/

/-- The faults of the database of this name: the database without its records. -/
def faults? (d : Device) (name : String) : Option Database := (d.named? name).map Database.bare

theorem Leaves.faults? {name : String} (h : d.Leaves d' name) : d'.faults? = d.faults? :=
  funext h.bare

theorem Observed.faults? (h : d.Observed d') : d'.faults? = d.faults? :=
  funext fun name => congrArg (Option.map Database.bare) (congrFun h.named? name)

/-- The faults let all these records be taken when the databases hold these pages. -/
def Admits (d : Device) (mode : WriteMode) (pages : String → Page) (rs : List Record) : Prop :=
  ∀ name, rs.filter (·.database = name) ≠ [] → ∃ db, d.faults? name = some db ∧
    (db.takeAll mode (pages name) (rs.filter (·.database = name))).1 = none

theorem admits_nil : d.Admits mode pages [] := fun _ h => absurd rfl h

/-- One record more for a database that is there. -/
theorem admits_cons_iff (hdb : d.faults? r.database = some db) :
    d.Admits mode pages (r :: rs) ↔ (∀ e, (db.take mode (pages r.database) r).1 ≠ .refused e) ∧
      d.Admits mode
        (Function.update pages r.database (db.take mode (pages r.database) r).2) rs := by
  have hfirst : (r :: rs).filter (·.database = r.database)
      = r :: rs.filter (·.database = r.database) := List.filter_cons_of_pos (by simp)
  have hothers : ∀ {name}, name ≠ r.database →
      (r :: rs).filter (·.database = name) = rs.filter (·.database = name) := fun hne =>
    List.filter_cons_of_neg (by simpa using hne.symm)
  constructor
  · intro h
    obtain ⟨x, hx, hall⟩ := h r.database (by simp)
    obtain rfl : x = db := Option.some.inj (hx.symm.trans hdb)
    rw [hfirst] at hall
    obtain ⟨htaken, hrest⟩ := Database.takeAll_cons_eq_none (Prod.ext hall rfl)
    refine ⟨htaken, fun name hne => ?_⟩
    by_cases hname : name = r.database
    · subst hname
      exact ⟨x, hdb, by rw [Function.update_self, hrest]⟩
    · rw [← hothers hname] at hne ⊢
      rw [Function.update_of_ne hname]
      exact h name hne
  · rintro ⟨htaken, h⟩ name hne
    by_cases hname : name = r.database
    · subst hname
      refine ⟨db, hdb, ?_⟩
      rw [hfirst, Database.takeAll_cons htaken]
      by_cases hnone : rs.filter (·.database = r.database) = []
      · rw [hnone, Database.takeAll_nil]
      · obtain ⟨x, hx, hall⟩ := h r.database hnone
        obtain rfl : x = db := Option.some.inj (hx.symm.trans hdb)
        rwa [Function.update_self] at hall
    · rw [hothers hname] at hne ⊢
      have := h name hne
      rwa [Function.update_of_ne hname] at this

namespace Writer

variable {w w' : Writer}

/-- What the writer counts as fresh, no database has refused. -/
theorem Touches.unstale {name : String} (h : Touches w d n name w' d')
    (hu : ∀ other x, d.named? other = some x → w.Unstale x) (hdb : d.named? name = some db)
    (hself : w'.Unstale db) : ∀ other x, d'.named? other = some x → w'.Unstale x := by
  intro other x hx
  by_cases hname : other = name
  · subst hname
    exact hself.of_bare (h.leaves.bare_of_named? hdb hx)
  · have hbefore : d.named? other = some x := by rwa [← h.leaves.named? other hname]
    have hxn : x.name = other := (named?_mem hx).2
    intro t htarget
    rw [hxn, h.targets other hname] at htarget
    exact hu other x hbefore t (hxn ▸ htarget)

/-- **When all records are taken.**  A writer has no record refused just if the faults of the
databases let each take those that name it. -/
theorem putAll_accepted_iff (rs : List Record) (hd : d.Sound (n + rs.length))
    (ht : Tracks mode w d pages) (hu : ∀ name db, d.named? name = some db → w.Unstale db) :
    (∀ a ∈ ((consumer session).putAll rs (w, d)).1, a = .ok ()) ↔ d.Admits mode pages rs := by
  induction rs generalizing w d pages with
  | nil => exact iff_of_true nofun admits_nil
  | cons r rs ih =>
    cases hdb : d.named? r.database with
    | none =>
      obtain ⟨e, hput⟩ := put_missing hd (ht.holds _) hdb
      rw [putAll_cons hput, List.forall_mem_cons]
      refine iff_of_false (fun h => Effect.answer_eq_ok_iff.mp h.1 _ rfl) fun h => ?_
      obtain ⟨x, hx, -⟩ := h r.database (by simp)
      rw [faults?, hdb] at hx
      cases hx
    | some db =>
      have hfaults : d.faults? r.database = some db.bare := by rw [faults?, hdb, Option.map_some]
      obtain ⟨w', d', hput, htouches, -, hgoes⟩ :=
        put_take (n := n + rs.length) hd ht.sameMode (ht.holds _) hdb (hu _ db hdb)
      rw [putAll_cons hput, List.forall_mem_cons, Effect.answer_eq_ok_iff, admits_cons_iff hfaults,
        Database.take_of_bare (show db.bare.bare = db.bare from rfl)]
      refine and_congr_right fun htaken => ?_
      obtain ⟨hholds, hunstale⟩ := hgoes htaken
      have ht' := ht.touches htouches hholds
      rw [ih htouches.sound ht' (htouches.unstale hu hdb hunstale), Admits, Admits,
        htouches.leaves.faults?]

end Writer

end Palmtop.Device
