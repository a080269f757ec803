import Mathlib.Data.List.Forall2
import Palmtop.Archive.Cursor
import Palmtop.Proofs.Transfer

/-! # Laws of cursors

Where every member is the entry of a record (`Shows`), a cursor hands out the records its filter
lets pass, in order, and comes to the end without an error (`Cursor.Holds.drain`).  Where besides the
records of each database follow one another, the rest of a database can be skipped behind any of its
records, and all other databases are handed out as before (`Cursor.Stands.serves`).

Whatever the members are, a cursor that is asked on behind its errors answers one member after the
other (`Cursor.answers`), and a reading is this up to the first error (`records_eq`).
-/
namespace Palmtop.Archive

/-- Whether a filter lets the records of a database pass. -/
def passes (filter : Option (List String)) (database : String) : Bool :=
  match filter with
  | some names => names.contains database
  | none => true

namespace Cursor

/-- The member is the entry of a record. -/
structure Shows (m : Tar.Member) (r : Record) : Prop where
  entry : entry? m = some ⟨r.database, r.uniqueId, r.recordType⟩
  size : m.size = r.payload.size
  data : m.data = r.payload
  small : r.payload.size ≤ maxPayload

theorem Shows.recordOf {m : Tar.Member} {r : Record} (h : Shows m r) :
    recordOf ⟨r.database, r.uniqueId, r.recordType⟩ m = .ok r := by
  have hfits : ¬ (maxPayload < m.size ∨ m.data.size ≠ m.size) := by
    have := h.small
    rw [h.size, h.data]
    omega
  rw [Cursor.recordOf, if_neg hfits, h.data]

/-- The cursor stands before the entries of these records and has nothing read ahead. -/
structure Stands (c : Cursor) (rs : List Record) : Prop where
  members : List.Forall₂ Shows c.members rs
  sound : c.broken = false
  peeked : c.peeked = none
  going : c.ended = false
  /-- A database is passed over from between two records on. -/
  between : c.skipping = none ∨ c.current = none

/-- The cursor stands there and passes no database over. -/
structure Holds (c : Cursor) (rs : List Record) : Prop extends Stands c rs where
  skipping : c.skipping = none

variable {c : Cursor} {rs : List Record}

/-- Unless a database is being passed over, the filter decides. -/
theorem wanted_eq (h : c.skipping = none) : c.wanted = passes c.filter := by
  funext database
  rw [wanted, h]
  rfl

theorem wanted_of_skipping {database : String} (h : c.skipping = some database) (other : String) :
    c.wanted other = (decide (other ≠ database) && passes c.filter other) := by
  have hne : (some database != some other) = decide (other ≠ database) := by
    by_cases he : other = database
    · simp [he]
    · simp [he, Ne.symm he]
  rw [wanted, h, hne]
  rfl

/-! ## One record -/

/-- Members up to the first one wanted are passed over. -/
theorem seek_of_shows {ms : List Tar.Member} (h : List.Forall₂ Shows ms rs)
    (wanted : String → Bool) :
    (seek wanted ms = none ∧ ∀ x ∈ rs, wanted x.database = false) ∨
    ∃ pre r ms' rs', seek wanted ms = some (.ok r, ms') ∧ rs = pre ++ r :: rs' ∧
      (∀ x ∈ pre, wanted x.database = false) ∧ wanted r.database = true ∧
      List.Forall₂ Shows ms' rs' ∧ ms'.length < ms.length := by
  induction h with
  | nil => exact Or.inl ⟨rfl, nofun⟩
  | @cons m r ms rs hm hms ih =>
    by_cases hw : wanted r.database = true
    · refine Or.inr ⟨[], r, ms, rs, ?_, rfl, nofun, hw, hms, Nat.lt_succ_self _⟩
      simp [seek, hm.entry, hw, hm.recordOf]
    · have hseek : seek wanted (m :: ms) = seek wanted ms := by simp [seek, hm.entry, hw]
      rw [hseek]
      rcases ih with ⟨hnone, hall⟩ | ⟨pre, r', ms', rs', h1, rfl, h3, h4, h5, h6⟩
      · exact Or.inl ⟨hnone, List.forall_mem_cons.mpr ⟨eq_false_of_ne_true hw, hall⟩⟩
      · exact Or.inr ⟨r :: pre, r', ms', rs', h1, rfl,
          List.forall_mem_cons.mpr ⟨eq_false_of_ne_true hw, h3⟩, h4, h5, Nat.lt_succ_of_lt h6⟩

/-- Behind a record taken, the cursor stands before the others and passes nothing over. -/
theorem Stands.taken (h : c.Stands rs) {ms : List Tar.Member} {rs' : List Record}
    (hms : List.Forall₂ Shows ms rs') (r : Record) :
    (Cursor.taken { c with members := ms } r).Holds rs' ∧
      (Cursor.taken { c with members := ms } r).members = ms ∧
      (Cursor.taken { c with members := ms } r).filter = c.filter ∧
      (Cursor.taken { c with members := ms } r).current = some r.database := by
  unfold Cursor.taken
  split
  · rename_i hcurrent
    change c.current = some r.database at hcurrent
    have hskipping := h.between.resolve_right (by simp [hcurrent])
    exact ⟨⟨⟨hms, h.sound, h.peeked, h.going, Or.inl hskipping⟩, hskipping⟩, rfl, rfl, hcurrent⟩
  · exact ⟨⟨⟨hms, h.sound, h.peeked, h.going, Or.inl rfl⟩, rfl⟩, rfl, rfl, rfl⟩

/-- Either no record is wanted any more, or the first that is wanted is next. -/
theorem Stands.pull (h : c.Stands rs) :
    (c.pull = (.ok none, { c with members := [], ended := true }) ∧
      ∀ x ∈ rs, c.wanted x.database = false) ∨
    ∃ pre r ms rs', c.pull = (.ok (some r), { c with members := ms }) ∧ rs = pre ++ r :: rs' ∧
      (∀ x ∈ pre, c.wanted x.database = false) ∧ c.wanted r.database = true ∧
      List.Forall₂ Shows ms rs' ∧ ms.length < c.members.length := by
  rcases seek_of_shows h.members c.wanted with ⟨hseek, hall⟩ | ⟨pre, r, ms, rs', hseek, hrest⟩
  · exact Or.inl ⟨by simp only [Cursor.pull, hseek, h.sound, Bool.false_eq_true, if_false], hall⟩
  · exact Or.inr ⟨pre, r, ms, rs', by simp only [Cursor.pull, hseek], hrest⟩

theorem Stands.next (h : c.Stands rs) :
    (c.next = (.ok none, { c with members := [], ended := true }) ∧
      ∀ x ∈ rs, c.wanted x.database = false) ∨
    ∃ pre r c' rs', c.next = (.ok (some r), c') ∧ rs = pre ++ r :: rs' ∧
      (∀ x ∈ pre, c.wanted x.database = false) ∧ c.wanted r.database = true ∧ c'.Holds rs' ∧
      c'.filter = c.filter ∧ c'.current = some r.database ∧
      c'.members.length < c.members.length := by
  rcases h.pull with ⟨hpull, hall⟩ | ⟨pre, r, ms, rs', hpull, hrs, hpre, hr, hms, hlt⟩
  · exact Or.inl ⟨by simp only [Cursor.next, h.peeked, hpull], hall⟩
  · obtain ⟨hholds, hmembers, hsame, hcurrent⟩ := h.taken hms r
    exact Or.inr ⟨pre, r, _, rs', by simp only [Cursor.next, h.peeked, hpull], hrs, hpre, hr,
      hholds, hsame, hcurrent, by rwa [hmembers]⟩

/-! ## A whole reading -/

/-- What is not wanted is filtered out. -/
theorem filter_wanted {wanted : String → Bool} {pre rs : List Record} {r : Record}
    (hpre : ∀ x ∈ pre, wanted x.database = false) (hr : wanted r.database = true) :
    (pre ++ r :: rs).filter (wanted ·.database) = r :: rs.filter (wanted ·.database) := by
  rw [List.filter_append, List.filter_eq_nil_iff.mpr fun x hx => by simp [hpre x hx],
    List.nil_append, List.filter_cons, if_pos hr]

theorem Holds.next (h : c.Holds rs) :
    (c.next = (.ok none, { c with members := [], ended := true }) ∧
      rs.filter (passes c.filter ·.database) = []) ∨
    ∃ r c' rs', c.next = (.ok (some r), c') ∧ c'.Holds rs' ∧ c'.filter = c.filter ∧
      rs.filter (passes c.filter ·.database) = r :: rs'.filter (passes c.filter ·.database) ∧
      c'.members.length < c.members.length := by
  rw [← wanted_eq h.skipping]
  rcases h.toStands.next with ⟨hnext, hall⟩ | ⟨pre, r, c', rs', hnext, rfl, hpre, hr, hc', hsame, -,
    hlt⟩
  · exact Or.inl ⟨hnext, List.filter_eq_nil_iff.mpr fun x hx => by simp [hall x hx]⟩
  · exact Or.inr ⟨r, c', rs', hnext, hc', hsame, filter_wanted hpre hr, hlt⟩

theorem Holds.drain (h : c.Holds rs) (limit : Nat) (hlimit : c.members.length < limit) :
    c.drain limit = (rs.filter (passes c.filter ·.database), none) := by
  induction limit generalizing c rs with
  | zero => omega
  | succ limit ih =>
    rcases h.next with ⟨hnext, hfilter⟩ | ⟨r, c', rs', hnext, hc', hsame, hfilter, hlt⟩
    · rw [Cursor.drain, hnext, hfilter]
    · rw [Cursor.drain, hnext, hfilter]
      simp only [ih hc' (by omega), hsame]

/-! ## A reading that skips -/

/-- Behind a record taken, the rest of its database can be passed over. -/
theorem Holds.skip {database : String} (h : c.Holds rs) (hcurrent : c.current = some database) :
    c.skip.Stands rs ∧ c.skip.skipping = some database ∧ c.skip.filter = c.filter ∧
      c.skip.members = c.members := by
  have hskip : c.skip = { c with current := none, skipping := some database } := by
    simp only [Cursor.skip, hcurrent, h.peeked, Option.filter_none]
  rw [hskip]
  exact ⟨⟨h.members, h.sound, h.peeked, h.going, Or.inr rfl⟩, rfl, rfl, rfl⟩

/-- What is passed over does not come again, and so the records wanted are served. -/
theorem Stands.serves (h : c.Stands rs) (hgrouped : Grouped rs)
    (hleads : ∀ database ∈ c.skipping, Leads database rs) :
    producer.Serves Cursor.skip c (rs.filter (c.wanted ·.database)) := by
  induction hn : c.members.length using Nat.strongRecOn generalizing c rs with
  | ind n ih =>
    -- on the number of members, since a record taken may have others passed over before it
    have hgoes : producer.ended c = false := by simp [producer, atEnd, h.going]
    rcases h.next with ⟨hnext, hall⟩ | ⟨pre, r, c', rs', hnext, rfl, hpre, hr, hc', hsame, hcurrent,
      hlt⟩
    · rw [List.filter_eq_nil_iff.mpr fun x hx => by simp [hall x hx]]
      exact .exhausted hgoes hnext (by simp [producer, atEnd, h.peeked])
    · obtain ⟨hstands, hskipping, hsame', hmembers⟩ := hc'.skip hcurrent
      obtain ⟨hrest, hgrouped'⟩ := hgrouped.of_append
      -- behind a record of another database, the one passed over does not come again
      have hbehind : rs'.filter (c.wanted ·.database) = rs'.filter (c'.wanted ·.database) := by
        refine List.filter_congr fun x hx => ?_
        rw [wanted_eq hc'.skipping, hsame]
        cases hs : c.skipping with
        | none => rw [wanted_eq hs]
        | some database =>
          rw [wanted_of_skipping hs] at hr ⊢
          have hr : r.database ≠ database := by
            rw [Bool.and_eq_true, decide_eq_true_eq] at hr
            exact hr.1
          have hx := (hleads database hs).not_mem hr x hx
          simp [hx]
      have hothers : (rs'.filter (c'.wanted ·.database)).filter (·.database ≠ r.database)
          = rs'.filter (c'.skip.wanted ·.database) := by
        rw [List.filter_filter]
        refine List.filter_congr fun x _ => ?_
        rw [wanted_of_skipping hskipping, wanted_eq hc'.skipping, hsame']
      rw [filter_wanted hpre hr, hbehind]
      refine .cons hgoes hnext (ih _ (hn ▸ hlt) hc'.toStands hgrouped' ?_ rfl) ?_
      · simp [hc'.skipping]
      · rw [hothers]
        refine ih _ ?_ hstands hgrouped' ?_ rfl
        · rw [hmembers, ← hn]
          exact hlt
        · rw [hskipping]
          rintro _ ⟨⟩
          exact hrest

/-- Looking at the next record takes nothing away. -/
theorem Holds.peek (h : c.Holds rs) (hgrouped : Grouped rs) :
    ∃ database c', c.peek = (.ok database, c') ∧
      producer.Serves Cursor.skip c' (rs.filter (passes c.filter ·.database)) := by
  have hserves := h.toStands.serves hgrouped (by simp [h.skipping])
  rw [wanted_eq h.skipping] at hserves
  rcases h.toStands.pull with ⟨hpull, hall⟩ | ⟨pre, r, ms, rs', hpull, -⟩
  · rw [wanted_eq h.skipping] at hall
    rw [List.filter_eq_nil_iff.mpr fun x hx => by simp [hall x hx]]
    exact ⟨none, { c with members := [], ended := true }, by
      simp only [Cursor.peek, h.peeked, hpull, Option.map_none],
      .ended (by simp [producer, atEnd, h.peeked])⟩
  · refine ⟨some r.database, { c with members := ms, peeked := some r }, ?_,
      hserves.of_next_eq (by simp [producer, atEnd]) (by simp [producer, atEnd, h.going]) ?_⟩
    · simp only [Cursor.peek, h.peeked, hpull, Option.map_some]
    · simp only [producer, Cursor.next, h.peeked, hpull]

/-! ## Any members -/

/-- What a cursor makes of a member: the record of its entry or an error, and nothing if it has no
entry or is not wanted. -/
def outcome (wanted : String → Bool) (m : Tar.Member) : Option (Except Error Record) :=
  match entry? m with
  | some name => if wanted name.database then some (recordOf name m) else none
  | none => none

theorem seek_cases (wanted : String → Bool) (ms : List Tar.Member) :
    (seek wanted ms = none ∧ ms.filterMap (outcome wanted) = []) ∨
    ∃ answer rest, seek wanted ms = some (answer, rest) ∧
      ms.filterMap (outcome wanted) = answer :: rest.filterMap (outcome wanted) ∧
      rest.length < ms.length := by
  induction ms with
  | nil => exact Or.inl ⟨rfl, rfl⟩
  | cons m ms ih =>
    -- a member that is passed over leaves what the others make
    have hpassed (hm : outcome wanted m = none) (hseek : seek wanted (m :: ms) = seek wanted ms) :
        (seek wanted (m :: ms) = none ∧ (m :: ms).filterMap (outcome wanted) = []) ∨
        ∃ answer rest, seek wanted (m :: ms) = some (answer, rest) ∧
          (m :: ms).filterMap (outcome wanted) = answer :: rest.filterMap (outcome wanted) ∧
          rest.length < (m :: ms).length := by
      rw [hseek, List.filterMap_cons_none hm]
      rcases ih with hnone | ⟨answer, rest, hrun, hrest, hlt⟩
      · exact Or.inl hnone
      · exact Or.inr ⟨answer, rest, hrun, hrest, Nat.lt_succ_of_lt hlt⟩
    cases hentry : entry? m with
    | none => exact hpassed (by simp only [outcome, hentry]) (by simp only [seek, hentry])
    | some name =>
      by_cases hw : wanted name.database = true
      · have hm : outcome wanted m = some (recordOf name m) := by
          simp only [outcome, hentry, if_pos hw]
        refine Or.inr ⟨recordOf name m, ms, ?_, List.filterMap_cons_some hm, Nat.lt_succ_self _⟩
        simp only [seek, hentry, if_pos hw]
      · exact hpassed (by simp only [outcome, hentry, if_neg hw])
          (by simp only [seek, hentry, if_neg hw])

/-- A record taken leaves the rest of the archive. -/
theorem taken_rest (c : Cursor) (r : Record) :
    (c.taken r).members = c.members ∧ (c.taken r).broken = c.broken ∧
      (c.taken r).peeked = c.peeked ∧ (c.taken r).filter = c.filter := by
  unfold Cursor.taken
  split
  · exact ⟨rfl, rfl, rfl, rfl⟩
  · exact ⟨rfl, rfl, rfl, rfl⟩

theorem taken_skipping {c : Cursor} (h : c.skipping = none) (r : Record) :
    (c.taken r).skipping = none := by
  unfold Cursor.taken
  split
  · exact h
  · rfl

/-- Behind the last member there is the end. -/
theorem answers_end {c : Cursor} (hpeeked : c.peeked = none) (hseek : seek c.wanted c.members = none)
    (hbroken : c.broken = false) : ∃ t, producer.Answers c [] t ∧ t.atEnd = true := by
  refine ⟨{ c with members := [], ended := true }, .exhausted ?_, by simp [atEnd, hpeeked]⟩
  simp only [producer, Cursor.next, hpeeked, Cursor.pull, hseek, hbroken, Bool.false_eq_true,
    if_false]

/-- A cursor that has nothing read ahead and passes nothing over answers its members one after the
other, and then the breaking off if there is one. -/
theorem answers (c : Cursor) (hpeeked : c.peeked = none) (hskipping : c.skipping = none) :
    ∃ t, producer.Answers c (c.members.filterMap (outcome (passes c.filter))
      ++ if c.broken then [.error .invalidData] else []) t ∧ t.atEnd = true := by
  induction hn : c.members.length using Nat.strongRecOn generalizing c with
  | ind n ih =>
    have hwanted := wanted_eq hskipping
    rcases seek_cases c.wanted c.members with ⟨hseek, hnone⟩ | ⟨answer, ms, hseek, hsome, hlt⟩
    · rw [hwanted] at hnone
      rw [hnone, List.nil_append]
      cases hbroken : c.broken with
      | false => exact answers_end hpeeked hseek hbroken
      | true =>
        obtain ⟨t, hanswers, hat⟩ :=
          answers_end (c := { c with members := [], broken := false }) hpeeked rfl rfl
        refine ⟨t, .failed ?_ hanswers, hat⟩
        simp only [producer, Cursor.next, hpeeked, Cursor.pull, hseek, hbroken, if_true]
    · rw [hwanted] at hsome
      rw [hsome, List.cons_append]
      cases answer with
      | error e =>
        obtain ⟨t, hanswers, hat⟩ :=
          ih _ (hn ▸ hlt) { c with members := ms } hpeeked hskipping rfl
        refine ⟨t, .failed ?_ hanswers, hat⟩
        simp only [producer, Cursor.next, hpeeked, Cursor.pull, hseek]
      | ok r =>
        obtain ⟨hmembers, hbroken, hpeeked', hfilter⟩ := taken_rest { c with members := ms } r
        have hskipping' := taken_skipping (c := { c with members := ms }) hskipping r
        obtain ⟨t, hanswers, hat⟩ := ih ms.length (hn ▸ hlt) (Cursor.taken { c with members := ms } r)
          (hpeeked'.trans hpeeked) hskipping' (congrArg List.length hmembers)
        rw [hmembers, hbroken, hfilter] at hanswers
        refine ⟨t, .record ?_ hanswers, hat⟩
        simp only [producer, Cursor.next, hpeeked, Cursor.pull, hseek]

/-- A reading ends at the first error. -/
theorem drain_of_answers {answers : List (Except Error Record)} {t : Cursor}
    (h : producer.Answers c answers t) (limit : Nat) (hlimit : answers.length < limit) :
    c.drain limit = upToError answers := by
  induction h generalizing limit with
  | @exhausted c t hnext =>
    change c.next = _ at hnext
    cases limit with
    | zero => omega
    | succ limit => rw [drain, hnext, upToError]
  | @record c u t r answers hnext _ ih =>
    change c.next = _ at hnext
    rw [List.length_cons] at hlimit
    cases limit with
    | zero => omega
    | succ limit => rw [drain, hnext, upToError, ← ih limit (by omega)]
  | @failed c u t e answers hnext _ _ =>
    change c.next = _ at hnext
    cases limit with
    | zero => omega
    | succ limit => rw [drain, hnext, upToError]

end Cursor

/-- What an archive answers to whoever asks on behind its errors. -/
def replies (contents : Tar.Contents) (filter : Option (List String)) :
    List (Except Error Record) :=
  contents.members.filterMap (Cursor.outcome (passes filter))
    ++ if contents.broken then [.error .invalidData] else []

/-- A reading is what an archive answers up to the first error. -/
theorem records_eq {files : Files} {path : Path} {contents : Tar.Contents}
    (h : load files path = .ok contents) (filter : Option (List String)) :
    records files path filter = .ok (upToError (replies contents filter)) := by
  obtain ⟨t, hanswers, -⟩ := (Cursor.ofContents contents filter).answers rfl rfl
  have hopen : open? files path filter = .ok (Cursor.ofContents contents filter) := by
    rw [open?, h]
    rfl
  rw [records, hopen]
  refine congrArg Except.ok (Cursor.drain_of_answers hanswers _ ?_)
  have hlength := List.length_filterMap_le (Cursor.outcome (passes filter)) contents.members
  change (replies contents filter).length < contents.members.length + 3
  rw [replies]
  rw [List.length_append]
  split
  · rw [List.length_singleton]
    omega
  · rw [List.length_nil]
    omega

end Palmtop.Archive
