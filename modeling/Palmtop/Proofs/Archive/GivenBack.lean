import Mathlib.Algebra.Group.Action.Defs
import Mathlib.Algebra.Order.BigOperators.Group.List
import Mathlib.Algebra.Order.Group.Nat
import Palmtop.Proofs.Archive.RoundTrip

/-! # What an archive gives back

A writer takes a record or not by the name of its database alone (`Writer.accepts`).  A reader asks
for more: the entry must still have its name when the tar file has left single dots out, and the
payload must not be larger than any record.  What becomes of a record between the two is `givenBack`,
and a finished archive answers just that for every record taken, in order (`answers_of_written`).
-/
namespace Palmtop.Archive

/-- What a reader makes of a record that was taken: nothing if its database is called like the
directory itself, an error if its payload is too large, and otherwise the record. -/
def givenBack (r : Record) : Option (Except Error Record) :=
  if r.database = "." then none
  else if maxPayload < r.payload.size then some (.error .invalidData)
  else some (.ok r)

namespace Writer

/-- The member of a record is its entry, but for a database that is called like the directory
itself. -/
theorem Stored.entry?_eq {m : Tar.Member} {r : Record} (h : Stored m r) :
    Cursor.entry? m
      = if r.database = "." then none else some ⟨r.database, r.uniqueId, r.recordType⟩ := by
  obtain ⟨name, hname, rfl⟩ := h
  have hentry : Cursor.entry? (Tar.fileMember (Tar.storedName ⟨name⟩) r.payload)
      = EntryName.parse? (Tar.storedName ⟨name⟩) := by
    simp only [Cursor.entry?, Tar.fileMember, if_true, Text.lossy_toUTF8]
  by_cases hdot : r.database = "."
  · -- the leaf that remains is no entry name
    rw [hdot] at hname
    rw [hentry, if_pos hdot, storedName_dot hname, parse?_leaf]
  · rw [hentry, if_neg hdot, storedName_entryName hname hdot, parse?_of_entryName? hname]

/-- The member of a record is made what the record is given back as. -/
theorem Stored.outcome {m : Tar.Member} {r : Record} (h : Stored m r) (wanted : String → Bool) :
    Cursor.outcome wanted m = if wanted r.database then givenBack r else none := by
  have hentry := h.entry?_eq
  by_cases hdot : r.database = "."
  · rw [if_pos hdot] at hentry
    simp only [Cursor.outcome, hentry, givenBack, if_pos hdot, ite_self]
  · obtain ⟨name, -, rfl⟩ := h
    rw [if_neg hdot] at hentry
    simp only [Cursor.outcome, hentry, givenBack, if_neg hdot]
    by_cases hlarge : maxPayload < r.payload.size
    · simp only [Cursor.recordOf, Tar.fileMember, hlarge, true_or, if_true]
    · simp only [Cursor.recordOf, Tar.fileMember, hlarge, ne_eq, not_true, or_self, if_false]

end Writer

/-- Where the members are those of records, an archive replies as the records are given back. -/
theorem replies_of_stored {members : List Tar.Member} {kept : List Record}
    (h : List.Forall₂ Writer.Stored members kept) (filter : Option (List String)) :
    replies ⟨members, false⟩ filter
      = (kept.filter (passes filter ·.database)).filterMap givenBack := by
  have hmembers : members.filterMap (Cursor.outcome (passes filter))
      = (kept.filter (passes filter ·.database)).filterMap givenBack := by
    induction h with
    | nil => rfl
    | @cons m r _ _ hm _ ih =>
      rw [List.filterMap_cons, hm.outcome, List.filter_cons]
      by_cases hpasses : passes filter r.database = true
      · rw [if_pos hpasses, if_pos hpasses, List.filterMap_cons, ih]
      · rw [if_neg hpasses, if_neg hpasses, ih]
  rw [replies, hmembers, if_neg Bool.false_ne_true, List.append_nil]

variable {c : Compression} {path : Path} {files files₁ : Files} {w : Writer}

/-- An archive of such members, opened, answers as the records are given back. -/
theorem answers_of_stored {members : List Tar.Member} {kept : List Record}
    (hload : load files path = .ok ⟨members, false⟩)
    (hstored : List.Forall₂ Writer.Stored members kept) (filter : Option (List String)) :
    ∃ cursor t, open? files path filter = .ok cursor ∧ Cursor.producer.Answers cursor
      ((kept.filter (passes filter ·.database)).filterMap givenBack) t ∧ t.atEnd = true := by
  obtain ⟨t, hanswers, hend⟩ := (Cursor.ofContents ⟨members, false⟩ filter).answers rfl rfl
  refine ⟨.ofContents ⟨members, false⟩ filter, t, by rw [open?, hload]; rfl, ?_, hend⟩
  rw [← replies_of_stored hstored filter]
  exact hanswers

/-- A finished file has the members of the records taken. -/
theorem load_of_written (extension : Compression.ofPath path = c)
    (codec : ∀ bytes, c.unwrap (c.wrap bytes) = ⟨bytes, false⟩)
    (created : Writer.createWith c path files = (.ok w, files₁)) (rs : List Record)
    (size : ((Writer.consumer.putAll rs w).2.blocks ++ Tar.trailer).size < Tar.sizeBound) :
    ∃ answers w' members, Writer.consumer.putAll rs w = (answers, w') ∧
      Consumer.taken rs answers = rs.filter (Writer.accepts ·.database) ∧
      load (w'.finish files₁).2 path = .ok ⟨members, false⟩ ∧
      List.Forall₂ Writer.Stored members (Consumer.taken rs answers) := by
  obtain ⟨fs, hcreate, hc, hempty, -⟩ := Writer.createWith_eq_ok created
  obtain ⟨answers, w', hrun, htaken, hextends⟩ := Writer.putAll_extends rs w
  obtain ⟨blocks, members, hblocks, hreads, hstored, -⟩ := hextends.blocks
  rw [hempty, ByteArray.empty_append] at hblocks
  rw [hrun] at size
  have hc' : w'.compression = c := hextends.compression.trans hc
  refine ⟨answers, w', members, hrun, htaken, ?_, hstored⟩
  exact load_finished (hblocks ▸ hreads) (hextends.location ▸ hcreate) (extension.trans hc'.symm)
    (by rw [hc']; exact codec) size

/-- The file is no larger than its records are together, and the blocks at its end. -/
theorem size_of_written (created : Writer.createWith c path files = (.ok w, files₁))
    (rs : List Record) :
    ((Writer.consumer.putAll rs w).2.blocks ++ Tar.trailer).size
      ≤ ((rs.filter (Writer.accepts ·.database)).map Writer.room).sum + 2 * Tar.blockSize := by
  obtain ⟨-, -, -, hempty, -⟩ := Writer.createWith_eq_ok created
  obtain ⟨answers, w', hrun, htaken, hextends⟩ := Writer.putAll_extends rs w
  obtain ⟨blocks, -, hblocks, -, -, hsize⟩ := hextends.blocks
  rw [hempty, ByteArray.empty_append] at hblocks
  rw [hrun, ByteArray.size_append, Tar.size_trailer, hblocks, ← htaken]
  exact Nat.add_le_add_right hsize _

/-- **What is taken and what is given back.**  Of whatever records are put into a new archive those
are taken whose database is accepted, and the finished file, opened without a filter and read on
behind its errors, answers for each of them what it is given back as, in order and to its end. -/
theorem answers_of_written (extension : Compression.ofPath path = c)
    (codec : ∀ bytes, c.unwrap (c.wrap bytes) = ⟨bytes, false⟩)
    (created : Writer.createWith c path files = (.ok w, files₁)) (rs : List Record)
    (size : ((Writer.consumer.putAll rs w).2.blocks ++ Tar.trailer).size < Tar.sizeBound) :
    let (answers, w') := Writer.consumer.putAll rs w
    let kept := Consumer.taken rs answers
    kept = rs.filter (Writer.accepts ·.database) ∧
    ∃ cursor t, open? (w'.finish files₁).2 path none = .ok cursor ∧
      Cursor.producer.Answers cursor (kept.filterMap givenBack) t ∧ t.atEnd = true := by
  obtain ⟨answers, w', members, hrun, htaken, hload, hstored⟩ :=
    load_of_written extension codec created rs size
  have hanswers := answers_of_stored hload hstored none
  have hall : (Consumer.taken rs answers).filter (passes none ·.database)
      = Consumer.taken rs answers := List.filter_eq_self.mpr fun _ _ => rfl
  rw [hall] at hanswers
  rw [hrun]
  exact ⟨htaken, hanswers⟩

/-- Two of these records are refused; of the two taken, one memo is given back. -/
theorem answers_of_written_refusing :
    let path : Path := ⟨"backup.tar"⟩
    let w : Writer := { path, location := ["backup.tar"], compression := .plain }
    let rs : List Record := [⟨"..", 6, 0, ⟨#[4]⟩⟩, ⟨"Memos", 7, 0, ⟨#[1, 2]⟩⟩, ⟨"a/b", 8, 0, ⟨#[3]⟩⟩,
      ⟨".", 9, 1, ⟨#[]⟩⟩]
    let (answers, w') := Writer.consumer.putAll rs w
    let kept := Consumer.taken rs answers
    let (_, files) := w'.finish (({} : Files).set ["backup.tar"] (.file .empty))
    kept = rs.filter (Writer.accepts ·.database) ∧
    ∃ cursor t, open? files path none = .ok cursor ∧
      Cursor.producer.Answers cursor (kept.filterMap givenBack) t ∧ t.atEnd = true :=
  answers_of_written (by decide +kernel : Compression.ofPath ⟨"backup.tar"⟩ = .plain) (fun _ => rfl)
    (show Writer.createWith .plain ⟨"backup.tar"⟩ {} = (.ok _, _) from rfl)
    [⟨"..", 6, 0, ⟨#[4]⟩⟩, ⟨"Memos", 7, 0, ⟨#[1, 2]⟩⟩, ⟨"a/b", 8, 0, ⟨#[3]⟩⟩, ⟨".", 9, 1, ⟨#[]⟩⟩]
    (by decide +kernel)

/-- Where relative paths start, an archive can be made of few records that are all accepted. -/
theorem load_of_accepted (rs : List Record)
    (accepted : ∀ r ∈ rs, Writer.accepts r.database = true)
    (small : ∀ r ∈ rs, r.database.toUTF8.size + r.payload.size < 2 ^ 32)
    (few : rs.length < 2 ^ 16) :
    let path : Path := ⟨"backup.tar"⟩
    let w : Writer := { path, location := ["backup.tar"], compression := .plain }
    ∃ answers w' members, Writer.consumer.putAll rs w = (answers, w') ∧
      Consumer.taken rs answers = rs ∧
      load (w'.finish (({} : Files).set ["backup.tar"] (.file .empty))).2 path
        = .ok ⟨members, false⟩ ∧ List.Forall₂ Writer.Stored members rs := by
  intro path w
  have hcomponents : path.components = ["backup.tar"] := by decide +kernel
  have created := createWith_new .plain "backup.tar" hcomponents (by decide +kernel)
    (by decide +kernel) (by decide +kernel) (by decide +kernel)
  have hall : rs.filter (Writer.accepts ·.database) = rs := List.filter_eq_self.mpr accepted
  have hrooms : (rs.map Writer.room).sum ≤ rs.length * 2 ^ 33 := by
    have hsum := List.sum_le_card_nsmul (rs.map Writer.room) (2 ^ 33) fun n hn => by
      obtain ⟨r, hr, rfl⟩ := List.mem_map.mp hn
      have hr := small r hr
      rw [Writer.room, Tar.blockSize]
      omega
    rwa [List.length_map, smul_eq_mul] at hsum
  have hsize : ((Writer.consumer.putAll rs w).2.blocks ++ Tar.trailer).size < Tar.sizeBound := by
    have hwritten : ((Writer.consumer.putAll rs w).2.blocks ++ Tar.trailer).size ≤ _ :=
      size_of_written created rs
    rw [hall, Tar.blockSize] at hwritten
    rw [Tar.sizeBound, UInt64.size]
    omega
  obtain ⟨answers, w', members, hrun, htaken, hload, hstored⟩ :=
    load_of_written (by decide +kernel) (fun _ => rfl) created rs hsize
  rw [hall] at htaken
  exact ⟨answers, w', members, hrun, htaken, hload, htaken ▸ hstored⟩

/-- A record whose database is called like the directory itself and one that is too large are taken
like the memo behind them, but there is no trace of the first and an error for the second. -/
theorem answers_of_lost {large : ByteArray} (hlarge : maxPayload < large.size)
    (hfits : large.size < 2 ^ 31) :
    let path : Path := ⟨"backup.tar"⟩
    let w : Writer := { path, location := ["backup.tar"], compression := .plain }
    let memo : Record := ⟨"Memos", 3, 0, ⟨#[1, 2]⟩⟩
    let rs : List Record := [⟨".", 1, 0, ⟨#[3]⟩⟩, ⟨"Photos", 2, 0, large⟩, memo]
    ∃ answers w' cursor t, Writer.consumer.putAll rs w = (answers, w') ∧
      Consumer.taken rs answers = rs ∧
      open? (w'.finish (({} : Files).set ["backup.tar"] (.file .empty))).2 path none = .ok cursor ∧
      Cursor.producer.Answers cursor [.error .invalidData, .ok memo] t ∧ t.atEnd = true := by
  intro path w memo rs
  have hnames : ∀ database ∈ [".", "Photos", "Memos"], Writer.accepts database = true := by
    decide +kernel
  have hsmall : ∀ r ∈ rs, r.database.toUTF8.size + r.payload.size < 2 ^ 32 := by
    refine List.forall_mem_cons.mpr ⟨by decide +kernel, List.forall_mem_cons.mpr ⟨?_,
      List.forall_mem_singleton.mpr (by decide +kernel)⟩⟩
    have hphotos : "Photos".toUTF8.size = 6 := by decide +kernel
    change "Photos".toUTF8.size + large.size < 2 ^ 32
    omega
  obtain ⟨answers, w', members, hrun, htaken, hload, hstored⟩ :=
    load_of_accepted rs (by simpa [rs, memo] using hnames) hsmall (by simp [rs])
  have hback : (rs.filter (passes none ·.database)).filterMap givenBack
      = [.error .invalidData, .ok memo] := by
    have hall : rs.filter (passes none ·.database) = rs := List.filter_eq_self.mpr fun _ _ => rfl
    have hdot : givenBack ⟨".", 1, 0, ⟨#[3]⟩⟩ = none := rfl
    have hphotos : givenBack ⟨"Photos", 2, 0, large⟩ = some (.error .invalidData) := by
      rw [givenBack, if_neg (by decide : "Photos" ≠ "."), if_pos hlarge]
    have hmemo : givenBack memo = some (.ok memo) := by decide +kernel
    rw [hall, List.filterMap_cons_none hdot, List.filterMap_cons_some hphotos,
      List.filterMap_cons_some hmemo, List.filterMap_nil]
  obtain ⟨cursor, t, hopen, hanswers, hend⟩ := answers_of_stored hload hstored none
  rw [hback] at hanswers
  exact ⟨answers, w', cursor, t, hrun, htaken, hopen, hanswers, hend⟩

/-- A payload of one byte too many. -/
theorem size_large :
    maxPayload < (ByteArray.mk (Array.replicate (maxPayload + 1) 7)).size ∧
      (ByteArray.mk (Array.replicate (maxPayload + 1) 7)).size < 2 ^ 31 := by
  have hsize : (ByteArray.mk (Array.replicate (maxPayload + 1) 7)).size = maxPayload + 1 :=
    Array.size_replicate
  exact ⟨hsize.symm ▸ Nat.lt_succ_self maxPayload,
    hsize.symm ▸ (by decide : maxPayload + 1 < 2 ^ 31)⟩

/-- So it is with a payload of one byte too many. -/
theorem taken_and_lost :
    let path : Path := ⟨"backup.tar"⟩
    let w : Writer := { path, location := ["backup.tar"], compression := .plain }
    let memo : Record := ⟨"Memos", 3, 0, ⟨#[1, 2]⟩⟩
    let rs : List Record := [⟨".", 1, 0, ⟨#[3]⟩⟩,
      ⟨"Photos", 2, 0, ⟨Array.replicate (maxPayload + 1) 7⟩⟩, memo]
    ∃ answers w' cursor t, Writer.consumer.putAll rs w = (answers, w') ∧
      Consumer.taken rs answers = rs ∧
      open? (w'.finish (({} : Files).set ["backup.tar"] (.file .empty))).2 path none = .ok cursor ∧
      Cursor.producer.Answers cursor [.error .invalidData, .ok memo] t ∧ t.atEnd = true :=
  answers_of_lost size_large.1 size_large.2

end Palmtop.Archive
