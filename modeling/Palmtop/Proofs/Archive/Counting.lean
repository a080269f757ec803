import Palmtop.Proofs.Archive.GivenBack

/-! # Counting the records of a filter

Counting reads the whole archive and adds up the databases wanted afterwards; a filtered reading
passes over what is not wanted before it looks at it.  The two agree on every archive but those in
which an entry of a database that is not wanted is too large (`countRecords_eq_ok_iff`): such an
archive can be read with the filter, and not counted.

An entry is `Sound` when it can be read.  All wanted members come out as records exactly if they are
sound, and what counting adds up is the number of wanted records among all (`total_addCount`).
-/
namespace Palmtop.Archive

/-! ## Sound entries -/

/-- The member has the size it claims, and it is the size of a record. -/
structure Sound (m : Tar.Member) : Prop where
  whole : m.data.size = m.size
  small : m.size ≤ maxPayload

namespace Cursor

variable {wanted : String → Bool} {ms : List Tar.Member}

theorem recordOf_sound {m : Tar.Member} (h : Sound m) (name : EntryName) :
    recordOf name m = .ok ⟨name.database, name.uniqueId, name.recordType, m.data⟩ := by
  have hfits : ¬ (maxPayload < m.size ∨ m.data.size ≠ m.size) := by
    have hwhole := h.whole
    have hsmall := h.small
    omega
  rw [recordOf, if_neg hfits]

theorem sound_of_recordOf {m : Tar.Member} {name : EntryName} {r : Record}
    (h : recordOf name m = .ok r) : Sound m ∧ r.database = name.database := by
  unfold recordOf at h
  split at h
  · cases h
  · obtain rfl := Except.ok.inj h
    exact ⟨⟨by omega, by omega⟩, rfl⟩

/-- The wanted members come out as records if their entries are sound, and only then. -/
theorem exists_outcomes_iff :
    (∃ rs : List Record, ms.filterMap (outcome wanted) = rs.map .ok) ↔
      ∀ m ∈ ms, ∀ name, entry? m = some name → wanted name.database = true → Sound m := by
  induction ms with
  | nil => exact ⟨fun _ => by simp, fun _ => ⟨[], rfl⟩⟩
  | cons m ms ih =>
    rw [List.forall_mem_cons, ← ih]
    -- a member that comes out as nothing says nothing
    have hpassed (hm : outcome wanted m = none)
        (hsound : ∀ name, entry? m = some name → wanted name.database = true → Sound m) :
        (∃ rs : List Record, (m :: ms).filterMap (outcome wanted) = rs.map .ok) ↔
          (∀ name, entry? m = some name → wanted name.database = true → Sound m) ∧
            ∃ rs : List Record, ms.filterMap (outcome wanted) = rs.map .ok := by
      rw [List.filterMap_cons_none hm]
      exact (and_iff_right hsound).symm
    cases hentry : entry? m with
    | none => exact hentry ▸ hpassed (by simp only [outcome, hentry]) (by simp [hentry])
    | some name =>
      by_cases hw : wanted name.database = true
      · have hm : outcome wanted m = some (recordOf name m) := by
          simp only [outcome, hentry, if_pos hw]
        rw [List.filterMap_cons_some hm]
        constructor
        · rintro ⟨rs, hrs⟩
          cases rs with
          | nil => cases hrs
          | cons r rs =>
            obtain ⟨hr, hrest⟩ := List.cons.inj hrs
            refine ⟨fun other hother _ => (sound_of_recordOf hr).1, rs, hrest⟩
        · rintro ⟨hsound, rs, hrs⟩
          have hr := recordOf_sound (hsound name rfl hw) name
          exact ⟨_ :: rs, by rw [hr, hrs, List.map_cons]⟩
      · refine hentry ▸ hpassed (by simp only [outcome, hentry, if_neg hw]) ?_
        rintro other hother hw'
        rw [hentry] at hother
        exact absurd (Option.some.inj hother ▸ hw') hw

/-- Of an archive in which every entry is sound, a filter leaves the records it wants. -/
theorem outcomes_filtered {all : List Record}
    (h : ms.filterMap (outcome fun _ => true) = all.map .ok) :
    ms.filterMap (outcome wanted) = (all.filter (wanted ·.database)).map .ok := by
  induction ms generalizing all with
  | nil =>
    rw [List.filterMap_nil, eq_comm, List.map_eq_nil_iff] at h
    rw [h]
    rfl
  | cons m ms ih =>
    cases hentry : entry? m with
    | none =>
      have hm (wanted : String → Bool) : outcome wanted m = none := by
        simp only [outcome, hentry]
      rw [List.filterMap_cons_none (hm _)] at h ⊢
      exact ih h
    | some name =>
      have hm : outcome (fun _ => true) m = some (recordOf name m) := by
        simp only [outcome, hentry, if_true]
      rw [List.filterMap_cons_some hm] at h
      cases all with
      | nil => cases h
      | cons r all =>
        obtain ⟨hr, hrest⟩ := List.cons.inj h
        have hdatabase := (sound_of_recordOf hr).2
        by_cases hw : wanted name.database = true
        · have hm' : outcome wanted m = some (recordOf name m) := by
            simp only [outcome, hentry, if_pos hw]
          rw [List.filterMap_cons_some hm', List.filter_cons, hdatabase, if_pos hw, hr, ih hrest,
            List.map_cons]
        · have hm' : outcome wanted m = none := by simp only [outcome, hentry, if_neg hw]
          rw [List.filterMap_cons_none hm', List.filter_cons, hdatabase, if_neg hw, ih hrest]

end Cursor

/-! ## Adding up -/

/-- The counts of the databases wanted, added up. -/
def total (wanted : String → Bool) (counts : List (String × Nat)) : Nat :=
  (counts.filter (wanted ·.1)).foldr (·.2 + ·) 0

theorem total_cons (wanted : String → Bool) (p : String × Nat) (counts : List (String × Nat)) :
    total wanted (p :: counts) = (if wanted p.1 then p.2 else 0) + total wanted counts := by
  rw [total, List.filter_cons]
  split
  · rfl
  · rw [Nat.zero_add, total]

/-- One more for a name is one more in the sum if the name is wanted. -/
theorem total_addCount (wanted : String → Bool) (name : String) (counts : List (String × Nat)) :
    total wanted (addCount name counts)
      = total wanted counts + if wanted name then 1 else 0 := by
  induction counts with
  | nil => rw [addCount, total_cons, Nat.add_comm]
  | cons p counts ih =>
    obtain ⟨other, n⟩ := p
    rw [addCount]
    split
    · rename_i he
      subst he
      rw [total_cons, total_cons]
      split <;> omega
    · rw [total_cons, total_cons, ih, Nat.add_assoc]

theorem total_counts (wanted : String → Bool) (rs : List Record) :
    total wanted (rs.foldl (fun counts r => addCount r.database counts) [])
      = (rs.filter (wanted ·.database)).length := by
  -- on the records to come, whatever was counted
  suffices h : ∀ counts, total wanted (rs.foldl (fun counts r => addCount r.database counts) counts)
      = total wanted counts + (rs.filter (wanted ·.database)).length by
    rw [h []]
    exact Nat.zero_add _
  induction rs with
  | nil => exact fun _ => rfl
  | cons r rs ih =>
    intro counts
    rw [List.foldl_cons, ih, total_addCount, List.filter_cons]
    split
    · rw [List.length_cons]
      omega
    · rfl

/-! ## The two readings -/

variable {files : Files} {path : Path} {contents : Tar.Contents} {filter : Option (List String)}

/-- An archive that does not break off has every member in full. -/
theorem load_whole (h : load files path = .ok contents) (hwhole : contents.broken = false) :
    ∀ m ∈ contents.members, m.data.size = m.size := by
  unfold load at h
  split at h
  · cases h
  · cases h
  · obtain rfl := Except.ok.inj h
    exact Tar.read_whole hwhole
  · obtain rfl := Except.ok.inj h
    exact Tar.read_whole hwhole

/-- A reading ends without an error if the archive is whole and the wanted entries are sound. -/
theorem records_eq_ok_iff (h : load files path = .ok contents) {rs : List Record} :
    records files path filter = .ok (rs, none) ↔
      contents.broken = false ∧
        contents.members.filterMap (Cursor.outcome (passes filter)) = rs.map .ok := by
  rw [records_eq h, Except.ok.injEq, upToError_eq_none_iff, replies]
  cases hbroken : contents.broken with
  | false => simp
  | true =>
    -- the error of the breaking off is no record
    simp only [if_true, Bool.true_eq_false, false_and, iff_false]
    intro he
    have hmem : .error .invalidData ∈ rs.map (Except.ok : Record → Except Error Record) :=
      he ▸ List.mem_append_right _ List.mem_cons_self
    obtain ⟨r, -, hr⟩ := List.mem_map.mp hmem
    cases hr

/-- Where the whole archive is read, a count is the number of wanted records among all. -/
theorem countRecords_of_records {all : List Record}
    (h : records files path none = .ok (all, none)) :
    countRecords files path filter = .ok (all.filter (passes filter ·.database)).length := by
  rw [countRecords, databaseCounts, h, ← total_counts]
  rfl

theorem countRecords_eq_iff {n : Nat} :
    countRecords files path filter = .ok n ↔
      ∃ all, records files path none = .ok (all, none) ∧
        (all.filter (passes filter ·.database)).length = n := by
  constructor
  · intro h
    cases hall : records files path none with
    | error e =>
      rw [countRecords, databaseCounts, hall] at h
      cases h
    | ok answer =>
      obtain ⟨all, _ | e⟩ := answer
      · rw [countRecords_of_records hall] at h
        exact ⟨all, rfl, Except.ok.inj h⟩
      · rw [countRecords, databaseCounts, hall] at h
        cases h
  · rintro ⟨all, hall, rfl⟩
    exact countRecords_of_records hall

/-- **Counting and reading.**  Counting the records of a filter gives `n` exactly if a reading with
the filter gives `n` records and no error, and besides no entry that the filter leaves out is larger
than a record. -/
theorem countRecords_eq_ok_iff (files : Files) (path : Path) (filter : Option (List String))
    (n : Nat) :
    countRecords files path filter = .ok n ↔
      (∃ rs, records files path filter = .ok (rs, none) ∧ rs.length = n) ∧
      ∀ contents, load files path = .ok contents → ∀ m ∈ contents.members, ∀ name,
        Cursor.entry? m = some name → passes filter name.database = false →
        m.size ≤ maxPayload := by
  rw [countRecords_eq_iff]
  cases hload : load files path with
  | error e =>
    have hnone (filter : Option (List String)) : records files path filter = .error e := by
      rw [records, open?, hload]
      rfl
    simp [hnone]
  | ok contents =>
    have hwanted : passes none = fun _ => true := rfl
    simp only [records_eq_ok_iff hload, hwanted]
    constructor
    · rintro ⟨all, ⟨hwhole, hall⟩, hn⟩
      refine ⟨⟨_, ⟨hwhole, Cursor.outcomes_filtered hall⟩, hn⟩, ?_⟩
      rintro _ ⟨⟩ m hm name hname -
      exact (Cursor.exists_outcomes_iff.mp ⟨all, hall⟩ m hm name hname rfl).small
    · rintro ⟨⟨rs, ⟨hwhole, hrs⟩, hn⟩, hsmall⟩
      -- what is not wanted is small by assumption, and whole as the archive does not break off
      obtain ⟨all, hall⟩ : ∃ all : List Record,
          contents.members.filterMap (Cursor.outcome fun _ => true) = all.map .ok := by
        refine Cursor.exists_outcomes_iff.mpr fun m hm name hname _ => ?_
        by_cases hpasses : passes filter name.database = true
        · exact Cursor.exists_outcomes_iff.mp ⟨rs, hrs⟩ m hm name hname hpasses
        · exact ⟨load_whole hload hwhole m hm,
            hsmall contents rfl m hm name hname (eq_false_of_ne_true hpasses)⟩
      refine ⟨all, ⟨hwhole, hall⟩, ?_⟩
      rw [Cursor.outcomes_filtered hall, List.map_inj_right fun _ _ => Except.ok.inj] at hrs
      rw [hrs, hn]

/-- Behind a record that is too large there is a memo.  A reading of the memos finds it, and
counting them is refused. -/
theorem countRecords_of_lost {large : ByteArray} (hlarge : maxPayload < large.size)
    (hfits : large.size < 2 ^ 31) :
    let path : Path := ⟨"backup.tar"⟩
    let w : Writer := { path, location := ["backup.tar"], compression := .plain }
    let memo : Record := ⟨"Memos", 3, 0, ⟨#[1, 2]⟩⟩
    ∃ answers w' files, Writer.consumer.putAll [⟨"Photos", 2, 0, large⟩, memo] w = (answers, w') ∧
      files = (w'.finish (({} : Files).set ["backup.tar"] (.file .empty))).2 ∧
      records files path (some ["Memos"]) = .ok ([memo], none) ∧
      countRecords files path (some ["Memos"]) = .error .invalidData := by
  intro path w memo
  have hnames : ∀ database ∈ ["Photos", "Memos"], Writer.accepts database = true := by
    decide +kernel
  have hphotos : "Photos".toUTF8.size = 6 := by decide +kernel
  have hsmall : ∀ r ∈ [⟨"Photos", 2, 0, large⟩, memo],
      r.database.toUTF8.size + r.payload.size < 2 ^ 32 := by
    refine List.forall_mem_cons.mpr ⟨?_, List.forall_mem_singleton.mpr (by decide +kernel)⟩
    change "Photos".toUTF8.size + large.size < 2 ^ 32
    omega
  obtain ⟨answers, w', members, hrun, -, hload, hstored⟩ :=
    load_of_accepted [⟨"Photos", 2, 0, large⟩, memo] (by simpa [memo] using hnames) hsmall (by simp)
  have hback : givenBack ⟨"Photos", 2, 0, large⟩ = some (.error .invalidData) := by
    rw [givenBack, if_neg (by decide : "Photos" ≠ "."), if_pos hlarge]
  have hmemo : givenBack memo = some (.ok memo) := by decide +kernel
  have hmemos : replies ⟨members, false⟩ (some ["Memos"]) = [.ok memo] := by
    rw [replies_of_stored hstored]
    exact List.filterMap_cons_some hmemo
  have hall : replies ⟨members, false⟩ none = [.error .invalidData, .ok memo] := by
    rw [replies_of_stored hstored]
    exact (List.filterMap_cons_some hback).trans (congrArg _ (List.filterMap_cons_some hmemo))
  refine ⟨answers, w', _, hrun, rfl, ?_, ?_⟩
  · rw [records_eq hload, hmemos]
    rfl
  · rw [countRecords, databaseCounts, records_eq hload, hall]
    rfl

/-- So it is with a payload of one byte too many. -/
theorem counted_otherwise :
    let path : Path := ⟨"backup.tar"⟩
    let w : Writer := { path, location := ["backup.tar"], compression := .plain }
    let photo : Record := ⟨"Photos", 2, 0, ⟨Array.replicate (maxPayload + 1) 7⟩⟩
    let memo : Record := ⟨"Memos", 3, 0, ⟨#[1, 2]⟩⟩
    ∃ answers w' files, Writer.consumer.putAll [photo, memo] w = (answers, w') ∧
      files = (w'.finish (({} : Files).set ["backup.tar"] (.file .empty))).2 ∧
      records files path (some ["Memos"]) = .ok ([memo], none) ∧
      countRecords files path (some ["Memos"]) = .error .invalidData :=
  countRecords_of_lost size_large.1 size_large.2

end Palmtop.Archive
