import Palmtop.Proofs.Device.Memory
import Palmtop.Proofs.Device.Merge

/-! # What a database with faults takes

The meaning of the faults of a database, without a device: `Database.take` is what becomes of one
more record, and `Database.takeAll` of one record after another up to the first that is refused.
A fault may refuse the opening of the database, and then nothing happens, or the record itself, and
then the database has been opened, which empties it if everything is to be erased.

What a database with faults takes it takes as one without (`takeAll_usual`), and where it breaks off
is said by `exists_of_takeAll_refused`.
-/
namespace Palmtop.Device.Database

variable {mode : WriteMode} {db other : Database} {p q : Page} {r : Record} {rs : List Record}
  {e : Error}

/-- Why the database cannot be opened, or its slot table not be fetched again, if it cannot. -/
def openingRefusal (db : Database) (mode : WriteMode) (p : Page) : Option Error :=
  if mode = .eraseAll ∧ p.opened = false then db.writeRefusal else db.tableRefusal

/-- Why the opened database does not take the record, if a fault of it does not. -/
def mutationRefusal (db : Database) (mode : WriteMode) (p : Page) (r : Record) : Option Error :=
  match mode with
  | .addAndOverwrite => if r.uniqueId ∈ p.uniqueIds then db.writeRefusal else db.growthRefusal
  | .addOnly => if r.uniqueId ∈ p.uniqueIds then none else db.growthRefusal
  | .eraseAll | .addAsNew => db.growthRefusal

/-- What becomes of one more record. -/
def take (db : Database) (mode : WriteMode) (p : Page) (r : Record) : Effect × Page :=
  match db.openingRefusal mode p with
  | some e => (.refused e, p)
  | none =>
    match db.mutationRefusal mode (p.opening mode) r with
    | some e => (.refused e, p.opening mode)
    | none => p.merge mode p.nextId r

/-- One record after another, up to the first that is refused. -/
def takeAll (db : Database) (mode : WriteMode) : Page → List Record → Option Error × Page
  | p, [] => (none, p)
  | p, r :: rs =>
    match db.take mode p r with
    | (.refused e, q) => (some e, q)
    | (_, q) => db.takeAll mode q rs

/-- Records are put into a database with faults, `faulty`, which is `db` without them: these it takes
and the next one it refuses, and then it holds the records `new`. -/
structure BreaksOff (mode : WriteMode) (db faulty : Database) (taken : List Record) (r : Record)
    (e : Error) (new : List Record) : Prop where
  /-- What is taken is taken as without the faults. -/
  refused : ∃ page q, db.takeAll mode { records := db.records.values } taken = (none, page) ∧
    faulty.take mode page r = (.refused e, q) ∧ q.records = new
  prescribed : taken ≠ [] → Prescribed mode db.records.values taken new
  /-- For a first record that is refused, the database may have been emptied. -/
  unopened : taken = [] → new = db.records.values ∨ mode = .eraseAll ∧ new = []

/-! ## One record -/

theorem take_of_refusal_eq_none (ho : db.openingRefusal mode p = none)
    (hm : db.mutationRefusal mode (p.opening mode) r = none) :
    db.take mode p r = p.merge mode p.nextId r := by
  simp only [take, ho, hm]

theorem Willing.openingRefusal (hw : db.Willing) (mode : WriteMode) (p : Page) :
    db.openingRefusal mode p = none := by
  rw [Database.openingRefusal, hw.writeRefusal, hw.tableRefusal, ite_self]

theorem Willing.mutationRefusal (hw : db.Willing) (mode : WriteMode) (p : Page) (r : Record) :
    db.mutationRefusal mode p r = none := by
  cases mode <;> simp [Database.mutationRefusal, hw.writeRefusal, hw.growthRefusal]

/-- Without faults, the mode alone decides. -/
theorem Willing.take (hw : db.Willing) (mode : WriteMode) (p : Page) (r : Record) :
    db.take mode p r = p.merge mode p.nextId r :=
  take_of_refusal_eq_none (hw.openingRefusal mode p) (hw.mutationRefusal mode _ r)

/-- What is not refused becomes what the mode makes of it. -/
theorem take_usual (h : ∀ e, (db.take mode p r).1 ≠ .refused e) :
    db.take mode p r = p.merge mode p.nextId r := by
  rw [take] at h ⊢
  split at h
  · exact absurd rfl (h _)
  split at h
  · exact absurd rfl (h _)
  · rfl

/-- A refused record leaves the records as they were, unless the database was emptied for it. -/
theorem records_of_take_refused (h : db.take mode p r = (.refused e, q)) :
    q.records = p.records ∨ mode = .eraseAll ∧ p.opened = false ∧ q.records = [] := by
  have hopening : (p.opening mode).records = p.records ∨
      mode = .eraseAll ∧ p.opened = false ∧ (p.opening mode).records = [] := by
    by_cases hp : mode = .eraseAll ∧ p.opened = false
    · exact Or.inr ⟨hp.1, hp.2, if_pos hp⟩
    · exact Or.inl (if_neg hp)
  unfold take at h
  split at h
  · cases h
    exact Or.inl rfl
  split at h
  · cases h
    exact hopening
  · obtain ⟨-, -, rfl⟩ := Page.merge_refused h
    exact hopening

/-- What refuses a record is not the end of the session. -/
theorem mild_of_take_refused (h : db.take mode p r = (.refused e, q)) : e.isFatal = false := by
  have hwrite : db.writeRefusal = some e → e.isFatal = false :=
    refusal_mild (c := .clearDatabase 0)
  have hgrowth : db.growthRefusal = some e → e.isFatal = false :=
    refusal_mild (c := .addRecord 0 r)
  have htable : db.tableRefusal = some e → e.isFatal = false := refusal_mild (c := .slotTable 0)
  unfold take at h
  split at h
  · rename_i ho
    cases h
    unfold openingRefusal at ho
    split at ho
    · exact hwrite ho
    · exact htable ho
  split at h
  · rename_i hm
    cases h
    cases mode with
    | eraseAll => exact hgrowth hm
    | addAsNew => exact hgrowth hm
    | addAndOverwrite =>
      simp only [mutationRefusal] at hm
      split at hm
      · exact hwrite hm
      · exact hgrowth hm
    | addOnly =>
      simp only [mutationRefusal] at hm
      split at hm
      · cases hm
      · exact hgrowth hm
  · obtain ⟨rfl, hr, -⟩ := Page.merge_refused h
    simp only [Page.merge, if_pos hr] at h
    cases h
    rfl

/-- The records the database holds play no part. -/
theorem take_of_bare (h : other.bare = db.bare) (mode : WriteMode) (p : Page) (r : Record) :
    other.take mode p r = db.take mode p r := by
  have hwrite : other.writeRefusal = db.writeRefusal := refusal_of_bare (c := .clearDatabase 0) h
  have hgrowth : other.growthRefusal = db.growthRefusal :=
    refusal_of_bare (c := .addRecord 0 r) h
  have htable : other.tableRefusal = db.tableRefusal := refusal_of_bare (c := .slotTable 0) h
  have hopening : other.openingRefusal mode p = db.openingRefusal mode p := by
    rw [openingRefusal, openingRefusal, hwrite, htable]
  have hmutation : other.mutationRefusal mode (p.opening mode) r
      = db.mutationRefusal mode (p.opening mode) r := by
    simp only [mutationRefusal, hwrite, hgrowth]
  rw [take, take, hopening, hmutation]

/-! ## One record after another -/

@[simp] theorem takeAll_nil (db : Database) (mode : WriteMode) (p : Page) :
    db.takeAll mode p [] = (none, p) := rfl

theorem takeAll_cons_refused (h : db.take mode p r = (.refused e, q)) (rs : List Record) :
    db.takeAll mode p (r :: rs) = (some e, q) := by
  simp only [takeAll, h]

theorem takeAll_cons (h : ∀ e, (db.take mode p r).1 ≠ .refused e) (rs : List Record) :
    db.takeAll mode p (r :: rs) = db.takeAll mode (db.take mode p r).2 rs := by
  rw [takeAll]
  split
  · rename_i e q he
    exact absurd (congrArg Prod.fst he) (h e)
  · rename_i he
    rw [he]

/-- Where all records are taken, the first is. -/
theorem takeAll_cons_eq_none (h : db.takeAll mode p (r :: rs) = (none, q)) :
    (∀ e, (db.take mode p r).1 ≠ .refused e) ∧
      db.takeAll mode (db.take mode p r).2 rs = (none, q) := by
  have htaken : ∀ e, (db.take mode p r).1 ≠ .refused e := fun e he => by
    rw [takeAll_cons_refused (Prod.ext he rfl)] at h
    cases h
  exact ⟨htaken, takeAll_cons htaken rs ▸ h⟩

theorem takeAll_of_bare (h : other.bare = db.bare) (mode : WriteMode) (p : Page)
    (rs : List Record) : other.takeAll mode p rs = db.takeAll mode p rs := by
  induction rs generalizing p with
  | nil => rfl
  | cons r rs ih => simp only [takeAll, take_of_bare h, ih]

/-- What a database with faults takes it takes as one without. -/
theorem takeAll_usual (hw : other.Willing) (h : db.takeAll mode p rs = (none, q)) :
    other.takeAll mode p rs = (none, q) := by
  induction rs generalizing p with
  | nil => exact h
  | cons r rs ih =>
    obtain ⟨htaken, h⟩ := takeAll_cons_eq_none h
    have hsame : other.take mode p r = db.take mode p r := by
      rw [hw.take, take_usual htaken]
    rw [takeAll_cons (hsame ▸ htaken), hsame]
    exact ih h

/-- The record at which a database breaks off, and those before it. -/
theorem exists_of_takeAll_refused (h : db.takeAll mode p rs = (some e, q)) :
    ∃ before r after page, rs = before ++ r :: after ∧ db.takeAll mode p before = (none, page) ∧
      db.take mode page r = (.refused e, q) := by
  induction rs generalizing p with
  | nil => cases h
  | cons r rs ih =>
    by_cases hrefused : ∃ e, (db.take mode p r).1 = .refused e
    · obtain ⟨e', he'⟩ := hrefused
      rw [takeAll_cons_refused (Prod.ext he' rfl)] at h
      cases h
      exact ⟨[], r, rs, p, rfl, rfl, Prod.ext he' rfl⟩
    · have htaken : ∀ e, (db.take mode p r).1 ≠ .refused e := fun e he => hrefused ⟨e, he⟩
      rw [takeAll_cons htaken] at h
      obtain ⟨before, x, after, page, rfl, hbefore, hx⟩ := ih h
      exact ⟨r :: before, x, after, page, rfl, (takeAll_cons htaken before).trans hbefore, hx⟩

/-- What a database takes becomes what the mode makes of it. -/
theorem merges_of_takeAll (h : db.takeAll mode p rs = (none, q))
    (hgiven : mode = .addAsNew → p.given ⊆ p.uniqueIds)
    (hsize : p.records.length + rs.length + 1 ≤ UInt64.size) :
    ∃ es, Page.Merges mode p rs es q := by
  induction rs generalizing p with
  | nil =>
    cases h
    exact ⟨[], .nil _⟩
  | cons r rs ih =>
    obtain ⟨htaken, h⟩ := takeAll_cons_eq_none h
    rw [take_usual htaken] at h
    rw [List.length_cons] at hsize
    have hlength := Page.length_merge_le mode p.nextId p r
    have hnext : mode = .addAsNew → (p.merge mode p.nextId r).2.given
        ⊆ (p.merge mode p.nextId r).2.uniqueIds := by
      rintro rfl
      rw [Page.merge_addAsNew, Page.uniqueIds_appendAs]
      -- the id that was given is now that of the record appended
      exact List.cons_subset.mpr ⟨by simp, fun id hid => List.mem_append_left _ (hgiven rfl hid)⟩
    obtain ⟨es, hes⟩ := ih h hnext (by omega)
    exact ⟨_, .cons _ (fun hm => Page.nextId_fresh (hgiven hm) (by omega)) hes⟩

/-- What a database with faults holds when it breaks off. -/
theorem Willing.breaksOff (hw : db.Willing) (hsize : rs.length ≤ UInt32.size)
    (hn : (rs.map (·.uniqueId)).Nodup)
    (h : other.takeAll mode { records := db.records.values } rs = (some e, q)) :
    ∃ taken r rest, rs = taken ++ r :: rest ∧ BreaksOff mode db other taken r e q.records := by
  obtain ⟨taken, r, rest, page, rfl, htaken, hr⟩ := exists_of_takeAll_refused h
  refine ⟨taken, r, rest, rfl, ⟨page, q, takeAll_usual hw htaken, hr, rfl⟩, fun hne => ?_, ?_⟩
  · have hbound : db.records.values.length + taken.length + 1 ≤ UInt64.size := by
      have hold := db.records.size_le
      rw [List.length_append] at hsize
      rw [Slots.length_values]
      have : UInt32.size + UInt32.size + 1 ≤ UInt64.size := by decide
      omega
    obtain ⟨es, hmerges⟩ := merges_of_takeAll htaken (fun _ => List.nil_subset _) hbound
    have hopened := hmerges.opened (Or.inl hne)
    -- the page is open, and so it was not emptied for the record that was refused
    have hsame : q.records = page.records := by
      rcases records_of_take_refused hr with hsame | ⟨-, hclosed, -⟩
      · exact hsame
      · rw [hopened] at hclosed
        cases hclosed
    rw [List.map_append, List.nodup_append] at hn
    rw [hsame]
    exact (hmerges.prescribed hne hn.1).1
  · rintro rfl
    cases htaken
    rcases records_of_take_refused hr with hsame | ⟨hmode, -, hnone⟩
    · exact Or.inl hsame
    · exact Or.inr ⟨hmode, hnone⟩

/-- A database without faults takes records of different ids to the last. -/
theorem Willing.takeAll (hw : db.Willing) (hn : (rs.map (·.uniqueId)).Nodup)
    (hnew : mode = .eraseAll → ∀ r ∈ rs, r.uniqueId ∉ (p.opening mode).uniqueIds) :
    (db.takeAll mode p rs).1 = none := by
  induction rs generalizing p with
  | nil => rfl
  | cons r rs ih =>
    rw [List.map_cons, List.nodup_cons] at hn
    have htaken : ∀ e, (db.take mode p r).1 ≠ .refused e := fun e he => by
      rw [hw.take] at he
      obtain ⟨hmode, hr, -⟩ := Page.merge_refused (Prod.ext he rfl)
      exact hnew hmode r List.mem_cons_self hr
    rw [takeAll_cons htaken, hw.take]
    refine ih hn.2 ?_
    rintro rfl x hx
    -- the database has been opened, and holds one id more, which the rest do not have
    have hr := hnew rfl r List.mem_cons_self
    have hxr : x.uniqueId ≠ r.uniqueId := fun he => hn.1 (he ▸ List.mem_map_of_mem hx)
    rw [Page.merge_of_notMem (by decide) hr, Page.opening_of_opened rfl, Page.uniqueIds_append,
      List.mem_append, List.mem_singleton, not_or]
    exact ⟨hnew rfl x (List.mem_cons_of_mem _ hx), hxr⟩

end Palmtop.Device.Database
