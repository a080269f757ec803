import Mathlib.Logic.Function.Basic
import Palmtop.Device.Error
import Palmtop.Device.Writer
import Palmtop.Proofs.Device.SlotTable

/-! # What a write mode prescribes

The meaning of the write modes, without a device: a `Page` is the records of one database as they
are to be, and `Page.merge` what becomes of them when one more record is put into the database.
`Merged` runs this over a list of records and any number of databases.  Only adding every record
as a new entry leaves something open, the id; it has to be `Fresh`.  The one a writer gives out is
`Page.nextId`.

`Prescribed` says for each mode in one line what a whole list of records with different ids makes of
a database, and `Page.Merges.prescribed` that this is what record after record comes to.
-/
namespace Palmtop.Device

/-- The records a database is to hold. -/
structure Page where
  records : List Record
  /-- A record was put into the database. -/
  opened : Bool := false
  /-- The ids given to new entries, the latest first. -/
  given : List UniqueId := []

/-- What becomes of one record. -/
inductive Effect where
  | written
  /-- Its id exists, and so it is left alone. -/
  | leftAlone
  | refused (error : Error)
  deriving DecidableEq

/-- What the writer answers. -/
def Effect.answer : Effect → Except Error Unit
  | .written | .leftAlone => .ok ()
  | .refused e => .error e

theorem Effect.answer_eq_ok_iff {effect : Effect} :
    effect.answer = .ok () ↔ ∀ e, effect ≠ .refused e := by
  cases effect with
  | written | leftAlone => simp [answer]
  | refused e => simp [answer]

namespace Page

/-- The ids of the records. -/
def uniqueIds (p : Page) : List UniqueId := p.records.map (·.uniqueId)

/-- The page when a record arrives: the first one empties it if everything is to be erased. -/
def opening (mode : WriteMode) (p : Page) : Page :=
  { p with
    records := if mode = .eraseAll ∧ p.opened = false then [] else p.records
    opened := true }

/-- The page with one more record. -/
def append (p : Page) (r : Record) : Page := { p with records := p.records ++ [r] }

/-- The page with a record in place of the one of its id. -/
def replace (p : Page) (r : Record) : Page :=
  { p with records := p.records.map fun old => if old.uniqueId = r.uniqueId then r else old }

/-- The page with one more record under an id of its own. -/
def appendAs (p : Page) (id : UniqueId) (r : Record) : Page :=
  { p.append (r.withUniqueId id) with given := id :: p.given }

/-- An id for a new entry: not zero, of no record there, and not given before. -/
structure Fresh (p : Page) (id : UniqueId) : Prop where
  ne_zero : id ≠ 0
  absent : id ∉ p.uniqueIds
  ungiven : id ∉ p.given

/-- The id a writer gives a new entry: the first free one behind the id it gave last. -/
def nextId (p : Page) : UniqueId :=
  SlotTable.freeAfter p.uniqueIds (p.records.length + 1) (p.given.headD 0)

/-- What a mode makes of one more record; a new entry gets `id`. -/
def merge (mode : WriteMode) (id : UniqueId) (page : Page) (r : Record) : Effect × Page :=
  let p := page.opening mode
  match mode with
  | .eraseAll =>
    if r.uniqueId ∈ p.uniqueIds then
      (.refused (.rejected s!"duplicate unique ID {r.uniqueId.show}"), p)
    else (.written, p.append r)
  | .addAndOverwrite =>
    if r.uniqueId ∈ p.uniqueIds then (.written, p.replace r) else (.written, p.append r)
  | .addOnly => if r.uniqueId ∈ p.uniqueIds then (.leftAlone, p) else (.written, p.append r)
  | .addAsNew => (.written, p.appendAs id r)

/-- Records put into one database, one after another. -/
inductive Merges (mode : WriteMode) : Page → List Record → List Effect → Page → Prop where
  | nil (p : Page) : Merges mode p [] [] p
  | cons {p q : Page} {r : Record} {rs : List Record} {es : List Effect} (id : UniqueId)
      (fresh : mode = .addAsNew → p.Fresh id)
      (rest : Merges mode (p.merge mode id r).2 rs es q) :
      Merges mode p (r :: rs) ((p.merge mode id r).1 :: es) q

end Page

/-- Records put one after another into the databases named. -/
inductive Merged (mode : WriteMode) (names : List String) :
    (String → Page) → List Record → List Effect → (String → Page) → Prop where
  | nil (pages : String → Page) : Merged mode names pages [] [] pages
  | missing {pages after : String → Page} {r : Record} {rs : List Record} {es : List Effect}
      (absent : r.database ∉ names) (rest : Merged mode names pages rs es after) :
      Merged mode names pages (r :: rs) (.refused (.databaseNotFound r.database) :: es) after
  | cons {pages after : String → Page} {r : Record} {rs : List Record} {es : List Effect}
      (id : UniqueId) (present : r.database ∈ names)
      (fresh : mode = .addAsNew → (pages r.database).Fresh id)
      (rest : Merged mode names
        (Function.update pages r.database ((pages r.database).merge mode id r).2) rs es after) :
      Merged mode names pages (r :: rs) (((pages r.database).merge mode id r).1 :: es) after

/-! ## One database among many -/

/-- What became of the records that name a database. -/
def effectsOn (name : String) (rs : List Record) (es : List Effect) : List Effect :=
  ((rs.zip es).filter (·.1.database = name)).map (·.2)

section merged
variable {mode : WriteMode} {names : List String} {pages after : String → Page} {rs : List Record}
  {es : List Effect}

/-- What becomes of a database depends on the records that name it alone. -/
theorem Merged.page (h : Merged mode names pages rs es after) {name : String} (hn : name ∈ names) :
    Page.Merges mode (pages name) (rs.filter (·.database = name)) (effectsOn name rs es)
      (after name) := by
  induction h with
  | nil pages => exact .nil _
  | @missing pages after r rs es absent _ ih =>
    have hne : r.database ≠ name := fun he => absent (he ▸ hn)
    simpa [effectsOn, hne] using ih
  | @cons pages after r rs es id present fresh _ ih =>
    by_cases he : r.database = name
    · subst he
      rw [Function.update_self] at ih
      simpa [effectsOn] using Page.Merges.cons id fresh ih
    · rw [Function.update_of_ne (Ne.symm he)] at ih
      simpa [effectsOn, he] using ih

/-- Each record has its effect, which is one of those on its database. -/
theorem Merged.exists_effectsOn (h : Merged mode names pages rs es after) {e : Effect}
    (he : e ∈ es) : ∃ r ∈ rs, e ∈ effectsOn r.database rs es := by
  have hlength : es.length = rs.length := by
    clear he
    induction h with
    | nil => rfl
    | missing _ _ ih => simp [ih]
    | cons _ _ _ _ ih => simp [ih]
  obtain ⟨i, hi, rfl⟩ := List.getElem_of_mem he
  have hz : (rs[i], es[i]) ∈ rs.zip es :=
    List.mem_iff_getElem.mpr ⟨i, by simp [hi, ← hlength], List.getElem_zip⟩
  exact ⟨rs[i], List.getElem_mem _, List.mem_map.mpr ⟨_, List.mem_filter.mpr ⟨hz, by simp⟩, rfl⟩⟩

end merged

/-! ## Whole lists at once -/

/-- What a mode makes of the records of a database when these records, no two of one id, are put
into it. -/
def Prescribed (mode : WriteMode) (old rs new : List Record) : Prop :=
  let absent (r : Record) : Bool := r.uniqueId ∉ old.map (·.uniqueId)
  match mode with
  | .eraseAll => new = rs
  | .addAndOverwrite =>
    new = old.map (fun r => (rs.find? (·.uniqueId == r.uniqueId)).getD r) ++ rs.filter absent
  | .addOnly => new = old ++ rs.filter absent
  | .addAsNew =>
    ∃ ids : List UniqueId, ids.length = rs.length ∧ ids.Nodup ∧ 0 ∉ ids ∧
      (∀ id ∈ ids, id ∉ old.map (·.uniqueId)) ∧ new = old ++ rs.zipWith Record.withUniqueId ids

namespace Page
variable {mode : WriteMode} {p q : Page} {rs : List Record} {es : List Effect}

@[simp] theorem records_append (p : Page) (r : Record) : (p.append r).records = p.records ++ [r] :=
  rfl

@[simp] theorem uniqueIds_append (p : Page) (r : Record) :
    (p.append r).uniqueIds = p.uniqueIds ++ [r.uniqueId] := by
  simp [uniqueIds]

@[simp] theorem uniqueIds_appendAs (p : Page) (id : UniqueId) (r : Record) :
    (p.appendAs id r).uniqueIds = p.uniqueIds ++ [id] := uniqueIds_append p (r.withUniqueId id)

@[simp] theorem uniqueIds_replace (p : Page) (r : Record) :
    (p.replace r).uniqueIds = p.uniqueIds :=
  Slots.map_key_overwriting Record.uniqueId r p.records

@[simp] theorem opened_append (p : Page) (r : Record) : (p.append r).opened = p.opened := rfl

theorem opening_of_opened (h : p.opened = true) : p.opening mode = p := by
  cases p
  simp_all [opening]

theorem opening_of_keeping (h : mode ≠ .eraseAll) :
    p.opening mode = { p with opened := true } := by
  simp [opening, h]

/-- Where the ids given are those of records still there, the next one is fresh. -/
theorem nextId_fresh (hgiven : p.given ⊆ p.uniqueIds)
    (hsize : p.records.length + 2 ≤ UInt64.size) : p.Fresh p.nextId := by
  have hlength : p.uniqueIds.length = p.records.length := List.length_map ..
  have hfree := SlotTable.freeAfter_fresh p.uniqueIds (p.given.headD 0) (hlength ▸ hsize)
  rw [hlength, List.mem_cons, not_or] at hfree
  exact ⟨hfree.1, hfree.2, fun h => hfree.2 (hgiven h)⟩

/-- Where its id is not there, a record that keeps it is appended. -/
theorem merge_of_notMem (hm : mode ≠ .addAsNew) {r : Record}
    (hr : r.uniqueId ∉ (p.opening mode).uniqueIds) (id : UniqueId) :
    p.merge mode id r = (.written, (p.opening mode).append r) := by
  cases mode with
  | eraseAll => exact if_neg hr
  | addAndOverwrite => exact if_neg hr
  | addOnly => exact if_neg hr
  | addAsNew => exact absurd rfl hm

theorem merge_addAndOverwrite (id : UniqueId) (p : Page) (r : Record) :
    p.merge .addAndOverwrite id r = (.written, if r.uniqueId ∈ p.uniqueIds
      then { p with opened := true }.replace r else { p with opened := true }.append r) := by
  have hopening : p.opening .addAndOverwrite = { p with opened := true } :=
    opening_of_keeping (by decide)
  simp only [merge, hopening]
  change (if r.uniqueId ∈ p.uniqueIds then _ else _) = _
  split
  · rfl
  · rfl

theorem merge_addOnly (id : UniqueId) (p : Page) (r : Record) :
    p.merge .addOnly id r = if r.uniqueId ∈ p.uniqueIds then (.leftAlone, { p with opened := true })
      else (.written, { p with opened := true }.append r) := by
  rw [merge, opening_of_keeping (show WriteMode.addOnly ≠ .eraseAll by decide)]
  rfl

theorem merge_addAsNew (id : UniqueId) (p : Page) (r : Record) :
    p.merge .addAsNew id r = (.written, { p with opened := true }.appendAs id r) := by
  rw [merge, opening_of_keeping (show WriteMode.addAsNew ≠ .eraseAll by decide)]

/-- Only adding leaves a record alone. -/
theorem merge_leftAlone {id : UniqueId} {r : Record} (h : p.merge mode id r = (.leftAlone, q)) :
    mode = .addOnly := by
  cases mode with
  | eraseAll =>
    simp only [merge] at h
    split at h
    · cases h
    · cases h
  | addAndOverwrite =>
    rw [merge_addAndOverwrite] at h
    cases h
  | addOnly => rfl
  | addAsNew => cases h

/-- Only erasing refuses a record, and only one whose id was put into the database before. -/
theorem merge_refused {id : UniqueId} {r : Record} {e : Error}
    (h : p.merge mode id r = (.refused e, q)) :
    mode = .eraseAll ∧ r.uniqueId ∈ (p.opening mode).uniqueIds ∧ q = p.opening mode := by
  cases mode with
  | eraseAll =>
    simp only [merge] at h
    split at h
    · rename_i hr
      cases h
      exact ⟨rfl, hr, rfl⟩
    · cases h
  | addAndOverwrite =>
    rw [merge_addAndOverwrite] at h
    cases h
  | addOnly =>
    rw [merge_addOnly] at h
    split at h
    · cases h
    · cases h
  | addAsNew => cases h

/-- A record that keeps its id is refused only where everything is erased and its id was put into
the database before. -/
theorem merge_taken_iff (id : UniqueId) {r : Record} :
    (∀ e, (p.merge mode id r).1 ≠ .refused e) ↔
      (mode = .eraseAll → r.uniqueId ∉ (p.opening mode).uniqueIds) := by
  constructor
  · rintro h rfl hr
    have hrefused : p.merge .eraseAll id r
        = (.refused (.rejected s!"duplicate unique ID {r.uniqueId.show}"), p.opening .eraseAll) :=
      if_pos hr
    exact h _ (congrArg Prod.fst hrefused)
  · intro h e he
    obtain ⟨hmode, hr, -⟩ := merge_refused (Prod.ext he rfl)
    exact h hmode hr

/-- A record that keeps its id brings no other. -/
theorem mem_uniqueIds_merge (hm : mode ≠ .addAsNew) {id u : UniqueId} {r : Record} :
    u ∈ (p.merge mode id r).2.uniqueIds ↔ u ∈ (p.opening mode).uniqueIds ∨ u = r.uniqueId := by
  by_cases hr : r.uniqueId ∈ (p.opening mode).uniqueIds
  · have hids : (p.merge mode id r).2.uniqueIds = (p.opening mode).uniqueIds := by
      cases mode with
      | eraseAll | addOnly => simp only [merge, if_pos hr]
      | addAndOverwrite => simp only [merge, if_pos hr, uniqueIds_replace]
      | addAsNew => exact absurd rfl hm
    rw [hids]
    refine ⟨Or.inl, ?_⟩
    rintro (hu | rfl)
    · exact hu
    · exact hr
  · rw [merge_of_notMem hm hr, uniqueIds_append, List.mem_append, List.mem_singleton]

/-- Whatever becomes of a record, it opens the page. -/
theorem opened_merge (mode : WriteMode) (id : UniqueId) (p : Page) (r : Record) :
    (p.merge mode id r).2.opened = true := by
  unfold merge
  cases mode with
  | addAsNew => rfl
  | eraseAll | addAndOverwrite | addOnly => dsimp only; split <;> rfl

/-- A record makes the page longer by one at most. -/
theorem length_merge_le (mode : WriteMode) (id : UniqueId) (p : Page) (r : Record) :
    (p.merge mode id r).2.records.length ≤ p.records.length + 1 := by
  have hopening : (p.opening mode).records.length ≤ p.records.length := by
    rw [opening]
    split
    · exact Nat.zero_le _
    · exact Nat.le_refl _
  have happend : ∀ x, ((p.opening mode).append x).records.length ≤ p.records.length + 1 :=
    fun x => by simpa using hopening
  have hreplace : ((p.opening mode).replace r).records.length ≤ p.records.length + 1 := by
    rw [replace, List.length_map]
    exact Nat.le_succ_of_le hopening
  unfold merge
  cases mode with
  | eraseAll =>
    dsimp only
    split
    · exact Nat.le_succ_of_le hopening
    · exact happend r
  | addAndOverwrite =>
    dsimp only
    split
    · exact hreplace
    · exact happend r
  | addOnly =>
    dsimp only
    split
    · exact Nat.le_succ_of_le hopening
    · exact happend r
  | addAsNew => exact happend (r.withUniqueId id)

/-- Where a record was put, the page is open. -/
theorem Merges.opened (h : Merges mode p rs es q) (hrs : rs ≠ [] ∨ p.opened = true) :
    q.opened = true := by
  induction h with
  | nil p => exact hrs.resolve_left fun h => h rfl
  | cons _ _ _ ih => exact ih (Or.inr (opened_merge ..))

/-- Into an opened page, records with ids of their own are put one behind the other. -/
theorem Merges.records_eraseAll (h : Merges .eraseAll p rs es q) (ho : p.opened = true)
    (hn : (rs.map (·.uniqueId)).Nodup) (hd : ∀ r ∈ rs, r.uniqueId ∉ p.uniqueIds) :
    q.records = p.records ++ rs ∧ ∀ e ∈ es, e = .written := by
  induction rs generalizing p es with
  | nil => cases h; simp
  | cons r rs ih =>
    cases h with
    | cons id _ rest =>
      rw [List.map_cons, List.nodup_cons] at hn
      have hstep : p.merge .eraseAll id r = (.written, p.append r) := by
        simp [merge, opening_of_opened ho, hd r List.mem_cons_self]
      rw [hstep] at rest ⊢
      obtain ⟨hq, hes⟩ := ih rest (by simpa using ho) hn.2 fun x hx => by
        have hxr : x.uniqueId ≠ r.uniqueId := fun he => hn.1 (he ▸ List.mem_map_of_mem hx)
        simpa [hxr] using hd x (List.mem_cons_of_mem _ hx)
      exact ⟨by simpa using hq, by simpa using hes⟩

/-- A record is replaced once at most, and one appended is not replaced any more. -/
theorem Merges.records_addAndOverwrite (h : Merges .addAndOverwrite p rs es q)
    (hn : (rs.map (·.uniqueId)).Nodup) :
    Prescribed .addAndOverwrite p.records rs q.records ∧ ∀ e ∈ es, e = .written := by
  induction rs generalizing p es with
  | nil => cases h; simp [Prescribed]
  | cons r rs ih =>
    cases h with
    | cons id _ rest =>
      rw [List.map_cons, List.nodup_cons] at hn
      have hne : ∀ x ∈ rs, x.uniqueId ≠ r.uniqueId := fun x hx he =>
        hn.1 (he ▸ List.mem_map_of_mem hx)
      have hfind : rs.find? (·.uniqueId == r.uniqueId) = none := by
        rw [List.find?_eq_none]
        exact fun x hx he => hne x hx (eq_of_beq he)
      by_cases hr : r.uniqueId ∈ p.records.map (·.uniqueId)
      · have hstep : p.merge .addAndOverwrite id r
            = (.written, { p with opened := true }.replace r) := by
          rw [merge_addAndOverwrite, if_pos (show r.uniqueId ∈ p.uniqueIds from hr)]
        rw [hstep] at rest ⊢
        obtain ⟨hq, hes⟩ := ih rest hn.2
        refine ⟨?_, by simpa using hes⟩
        have hids := uniqueIds_replace { p with opened := true } r
        simp only [uniqueIds] at hids
        -- the rest finds the same ids as before, and does not name this one again
        simp only [Prescribed, hids] at hq ⊢
        rw [hq, List.filter_cons_of_neg (by simpa using hr), replace, List.map_map]
        congr 1
        refine List.map_congr_left fun x _ => ?_
        by_cases hx : x.uniqueId = r.uniqueId
        · simp [hx, hfind]
        · simp [hx, Ne.symm hx]
      · have hstep : p.merge .addAndOverwrite id r
            = (.written, { p with opened := true }.append r) := by
          rw [merge_addAndOverwrite, if_neg (show r.uniqueId ∉ p.uniqueIds from hr)]
        rw [hstep] at rest ⊢
        obtain ⟨hq, hes⟩ := ih rest hn.2
        refine ⟨?_, by simpa using hes⟩
        simp only [Prescribed, records_append] at hq ⊢
        rw [hq, List.filter_cons_of_pos (by simpa using hr), List.map_append, List.append_assoc]
        congr 1
        -- what was there keeps its place, and what is appended is not touched by the rest
        · refine List.map_congr_left fun x hx => ?_
          have : r.uniqueId ≠ x.uniqueId := fun he => hr (he ▸ List.mem_map_of_mem hx)
          simp [this]
        · simp only [List.map_cons, List.map_nil, hfind, Option.getD_none, List.singleton_append]
          congr 1
          exact List.filter_congr fun x hx => by simp [hne x hx]

/-- A record is left alone or appended. -/
theorem Merges.records_addOnly (h : Merges .addOnly p rs es q)
    (hn : (rs.map (·.uniqueId)).Nodup) :
    Prescribed .addOnly p.records rs q.records ∧ ∀ e ∈ es, e = .written ∨ e = .leftAlone := by
  induction rs generalizing p es with
  | nil => cases h; simp [Prescribed]
  | cons r rs ih =>
    cases h with
    | cons id _ rest =>
      rw [List.map_cons, List.nodup_cons] at hn
      have hne : ∀ x ∈ rs, x.uniqueId ≠ r.uniqueId := fun x hx he =>
        hn.1 (he ▸ List.mem_map_of_mem hx)
      by_cases hr : r.uniqueId ∈ p.records.map (·.uniqueId)
      · have hstep : p.merge .addOnly id r = (.leftAlone, { p with opened := true }) := by
          rw [merge_addOnly, if_pos (show r.uniqueId ∈ p.uniqueIds from hr)]
        rw [hstep] at rest ⊢
        obtain ⟨hq, hes⟩ := ih rest hn.2
        refine ⟨?_, by simpa using hes⟩
        simp only [Prescribed] at hq ⊢
        rw [hq, List.filter_cons_of_neg (by simpa using hr)]
      · have hstep : p.merge .addOnly id r
            = (.written, { p with opened := true }.append r) := by
          rw [merge_addOnly, if_neg (show r.uniqueId ∉ p.uniqueIds from hr)]
        rw [hstep] at rest ⊢
        obtain ⟨hq, hes⟩ := ih rest hn.2
        refine ⟨?_, by simpa using hes⟩
        simp only [Prescribed, records_append] at hq ⊢
        rw [hq, List.filter_cons_of_pos (by simpa using hr), List.append_assoc,
          List.singleton_append]
        congr 2
        exact List.filter_congr fun x hx => by simp [hne x hx]

/-- Every record is appended, under an id that none of the others has. -/
theorem Merges.records_addAsNew (h : Merges .addAsNew p rs es q) :
    (∃ ids : List UniqueId, ids.length = rs.length ∧ ids.Nodup ∧ 0 ∉ ids ∧
      (∀ id ∈ ids, id ∉ p.uniqueIds ∧ id ∉ p.given) ∧
      q.records = p.records ++ rs.zipWith Record.withUniqueId ids) ∧ ∀ e ∈ es, e = .written := by
  induction rs generalizing p es with
  | nil => cases h; exact ⟨⟨[], by simp⟩, by simp⟩
  | cons r rs ih =>
    cases h with
    | cons id fresh rest =>
      -- the ids given out later avoid this one, since it is among the given
      rw [merge_addAsNew] at rest ⊢
      obtain ⟨⟨ids, hlen, hnodup, hzero, hids, hq⟩, hes⟩ := ih rest
      obtain ⟨h0, habsent, hungiven⟩ := fresh rfl
      refine ⟨⟨id :: ids, by simp [hlen], ?_, ?_, ?_, ?_⟩, by simpa using hes⟩
      · exact List.nodup_cons.mpr ⟨fun hm => by simpa [appendAs] using (hids id hm).2, hnodup⟩
      · simpa [eq_comm, h0] using hzero
      · rintro x (_ | ⟨_, hx⟩)
        · exact ⟨habsent, hungiven⟩
        · obtain ⟨hrecords, hgiven⟩ := hids x hx
          rw [appendAs, List.mem_cons, not_or] at hgiven
          exact ⟨fun hm => hrecords (by simpa [appendAs, uniqueIds] using Or.inl hm), hgiven.2⟩
      · simpa [appendAs] using hq

/-- The first record opens the page; that it is opened before makes no difference. -/
theorem Merges.of_opening (h : Merges .eraseAll p rs es q) (hrs : rs ≠ []) :
    Merges .eraseAll (p.opening .eraseAll) rs es q := by
  cases h with
  | nil => exact absurd rfl hrs
  | @cons _ _ r rs es id fresh rest =>
    have hmerge : (p.opening .eraseAll).merge .eraseAll id r = p.merge .eraseAll id r := by
      rw [merge, merge, opening_of_opened (p := p.opening _) rfl]
    rw [← hmerge] at rest ⊢
    exact .cons id nofun rest

/-- Record after record, the mode does to the database what it prescribes for the list. -/
theorem Merges.prescribed {old : List Record} (h : Merges mode ⟨old, false, []⟩ rs es q)
    (hrs : rs ≠ []) (hn : (rs.map (·.uniqueId)).Nodup) :
    Prescribed mode old rs q.records ∧ ∀ e ∈ es, e.answer = .ok () := by
  cases mode with
  | eraseAll =>
    obtain ⟨hq, hes⟩ := (h.of_opening hrs).records_eraseAll rfl hn (by simp [opening, uniqueIds])
    exact ⟨by simpa [opening, Prescribed] using hq, fun e he => by rw [hes e he]; rfl⟩
  | addAndOverwrite =>
    obtain ⟨hq, hes⟩ := h.records_addAndOverwrite hn
    exact ⟨hq, fun e he => by rw [hes e he]; rfl⟩
  | addOnly =>
    obtain ⟨hq, hes⟩ := h.records_addOnly hn
    exact ⟨hq, fun e he => by rcases hes e he with rfl | rfl <;> rfl⟩
  | addAsNew =>
    obtain ⟨⟨ids, hlen, hnodup, hzero, hids, hq⟩, hes⟩ := h.records_addAsNew
    exact ⟨⟨ids, hlen, hnodup, hzero, fun id hid => (hids id hid).1, hq⟩,
      fun e he => by rw [hes e he]; rfl⟩

end Page

end Palmtop.Device
