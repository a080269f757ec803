import Palmtop.Proofs.Device.Exhausting
import Palmtop.Proofs.Migration.Counting
import Palmtop.Proofs.Migration.Keeping

/-! # What is said of the progress of a backup

The counts shown in a phase are `Sound` if they have one total, rise by whole blocks to what was
moved, and stay within the total.

In the backup the total comes from the catalog, and the number processed from what the reader hands
out (`Device.Reader.Awaits`), so that at the end of the source they agree.  The invariant goes by
how far the migration is (`Run.TalliesBackup`).
-/
namespace Palmtop.Migration

/-! ## The counts of a phase -/

/-- A count for each multiple of the block size that was reached. -/
def marks (blockSize total processed : Nat) : List Count :=
  ((List.range' 1 processed).filter fun n => blockSize ∣ n).map fun n => ⟨n, total⟩

/-- The counts of a phase, when so many records of `total` were moved. -/
structure Sound (blockSize total processed : Nat) (cs : List Count) : Prop where
  same : ∀ c ∈ cs, c.total = total
  rising : cs.Pairwise (·.processed ≤ ·.processed)
  bounded : ∀ c ∈ cs, c.processed ≤ c.total
  /-- There is one for each multiple of the block size, one before them unless there is nothing to
  move, and maybe one behind them. -/
  blocks : ∃ first last, cs = first ++ marks blockSize total processed ++ last ∧
    (first = [⟨0, total⟩] ∨ first = [] ∧ total = 0) ∧ (last = [] ∨ last = [⟨processed, total⟩])

/-- The counts of a phase with these at the end. -/
structure Shows (blockSize total processed : Nat) (last cs : List Count) : Prop where
  bounded : processed ≤ total
  counts : ∃ first, cs = first ++ marks blockSize total processed ++ last ∧
    (first = [⟨0, total⟩] ∨ first = [] ∧ total = 0)

variable {blockSize total processed : Nat} {cs last : List Count}

theorem marks_succ (blockSize total processed : Nat) :
    marks blockSize total (processed + 1) = marks blockSize total processed ++
      if (processed + 1) % blockSize = 0 then [⟨processed + 1, total⟩] else [] := by
  rw [marks, List.range'_1_concat, List.filter_append, List.map_append, ← marks, Nat.add_comm 1]
  refine congrArg (marks blockSize total processed ++ ·) ?_
  by_cases h : (processed + 1) % blockSize = 0
  · rw [if_pos h, List.filter_cons_of_pos (by simpa using Nat.dvd_of_mod_eq_zero h)]
    rfl
  · rw [if_neg h, List.filter_cons_of_neg fun hd => h (Nat.mod_eq_zero_of_dvd (by simpa using hd))]
    rfl

theorem mem_marks {c : Count} (h : c ∈ marks blockSize total processed) :
    c.total = total ∧ c.processed ≤ processed := by
  obtain ⟨n, hn, rfl⟩ := List.mem_map.mp h
  have hrange := List.mem_range'_1.mp (List.mem_filter.mp hn).1
  exact ⟨rfl, by dsimp only; omega⟩

theorem pairwise_marks (blockSize total processed : Nat) :
    (marks blockSize total processed).Pairwise (·.processed ≤ ·.processed) := by
  have hrange : (List.range' 1 processed).Pairwise (· ≤ ·) :=
    List.pairwise_le_range'
  exact List.pairwise_map.mpr (hrange.filter _)

theorem Shows.nil (blockSize : Nat) : Shows blockSize 0 0 [] [] :=
  ⟨Nat.le_refl 0, [], rfl, Or.inr ⟨rfl, rfl⟩⟩

theorem Shows.begun (blockSize total : Nat) : Shows blockSize total 0 [] [⟨0, total⟩] :=
  ⟨Nat.zero_le total, [⟨0, total⟩], rfl, Or.inl rfl⟩

/-- One more record was moved. -/
theorem Shows.succ (h : Shows blockSize total processed [] cs) (hle : processed + 1 ≤ total) :
    Shows blockSize total (processed + 1) []
      (cs ++ if (processed + 1) % blockSize = 0 then [⟨processed + 1, total⟩] else []) := by
  obtain ⟨-, first, rfl, hfirst⟩ := h
  refine ⟨hle, first, ?_, hfirst⟩
  rw [List.append_nil, List.append_nil, marks_succ, List.append_assoc]

/-- The phase comes to its end. -/
theorem Shows.close (h : Shows blockSize total processed [] cs) :
    Shows blockSize total processed [⟨processed, total⟩] (cs ++ [⟨processed, total⟩]) := by
  obtain ⟨hle, first, rfl, hfirst⟩ := h
  exact ⟨hle, first, by rw [List.append_nil], hfirst⟩

theorem Shows.getLast? (h : Shows blockSize total processed [⟨processed, total⟩] cs) :
    cs.getLast? = some ⟨processed, total⟩ := by
  obtain ⟨-, first, rfl, -⟩ := h
  exact List.getLast?_concat

theorem Shows.sound (h : Shows blockSize total processed last cs)
    (hlast : last = [] ∨ last = [⟨processed, total⟩]) : Sound blockSize total processed cs := by
  obtain ⟨hle, first, rfl, hfirst⟩ := h
  have hbegin : ∀ c ∈ first, c.total = total ∧ c.processed = 0 := by
    rcases hfirst with rfl | ⟨rfl, -⟩
    · exact List.forall_mem_singleton.mpr ⟨rfl, rfl⟩
    · exact List.forall_mem_nil _
  have hend : ∀ c ∈ last, c.total = total ∧ c.processed = processed := by
    rcases hlast with rfl | rfl
    · exact List.forall_mem_nil _
    · exact List.forall_mem_singleton.mpr ⟨rfl, rfl⟩
  have hall : ∀ c ∈ first ++ marks blockSize total processed ++ last,
      c.total = total ∧ c.processed ≤ processed := by
    intro c hc
    rcases List.mem_append.mp hc with hc | hc
    · rcases List.mem_append.mp hc with hc | hc
      · obtain ⟨htotal, hzero⟩ := hbegin c hc
        exact ⟨htotal, hzero ▸ Nat.zero_le _⟩
      · exact mem_marks hc
    · obtain ⟨htotal, hprocessed⟩ := hend c hc
      exact ⟨htotal, Nat.le_of_eq hprocessed⟩
  refine ⟨fun c hc => (hall c hc).1, ?_, fun c hc => ?_, first, last, rfl, hfirst, hlast⟩
  · refine List.pairwise_append.mpr
      ⟨List.pairwise_append.mpr ⟨?_, pairwise_marks _ _ _, ?_⟩, ?_, ?_⟩
    · exact List.pairwise_of_forall_mem_list fun a ha b _ => by rw [(hbegin a ha).2]; omega
    · exact fun a ha b _ => by rw [(hbegin a ha).2]; omega
    · exact List.pairwise_of_forall_mem_list fun a ha b hb => by
        rw [(hend a ha).2, (hend b hb).2]
    · exact fun a ha b hb => by
        rw [(hend b hb).2]
        exact (hall a (List.mem_append_left _ ha)).2
  · obtain ⟨htotal, hprocessed⟩ := hall c hc
    rw [htotal]
    exact Nat.le_trans hprocessed hle

namespace Run

open Device.Reader (Awaits)

variable {r r' : Run} {sessions : Device.Bus.Sessions} {refusals : Device.Bus.Refusals} {t : Turn}
  {kept : List Record}

/-! ## The backup -/

/-- The turn is the worker's, who finishes the archive of this device. -/
def FinishesArchiveOf (d : Device) (r : Run) : Turn → Prop
  | .work _ => ∃ b n, r.stage = .closing b (.ok ()) ∧ r.bus.Drives b.connection n d
  | _ => False

/-- The archive of this device is finished in the course of these turns. -/
def BackedUp (d : Device) (r : Run) : List Turn → Prop
  | [] => False
  | t :: turns => r.FinishesArchiveOf d t ∨ (r.turn t).BackedUp d turns

/-- The archive that is being made of a device has the first of its records, and those that are
still to be read are the others. -/
structure Exhausts (r : Run) (b : Backup) (kept : List Record) : Prop where
  source : ∃ d rest, d.Proper ∧ r.bus.Holds b.connection d ∧ Awaits d b.reader rest ∧
    d.allRecords = kept ++ rest ∧ b.total = d.allRecords.length
  processed : b.processed = kept.length

/-- The counts of the backup, by how far the run is, and whether it has come to its end. -/
def TalliesBackup (r : Run) (cs : List Count) (kept : List Record) (finished : Prop)
    (source : Device → Prop) : Prop :=
  match r.stage.progress with
  | .before => ¬ finished ∧ cs = [] ∧ kept = [] ∧ ∀ d ∈ r.bus.devices, d.Proper
  | .backingUp b => ¬ finished ∧ Shows r.plan.blockSize b.total kept.length [] cs ∧
      r.Exhausts b kept
  | _ => (¬ finished ∧ ∃ total, Shows r.plan.blockSize total kept.length [] cs) ∨
      finished ∧ Shows r.plan.blockSize kept.length kept.length [⟨kept.length, kept.length⟩] cs ∧
        ∃ d, source d ∧ kept = d.allRecords

variable {finished : Prop} {source source' : Device → Prop}

/-- What there is to tell of the backup once no backup is under way. -/
theorem talliesBackup_of_progress (hprogress : r'.stage.progress ≠ .before)
    (hidle : ∀ b, r'.stage.progress ≠ .backingUp b) : r'.TalliesBackup cs kept finished source ↔
      ((¬ finished ∧ ∃ total, Shows r'.plan.blockSize total kept.length [] cs) ∨
      finished ∧ Shows r'.plan.blockSize kept.length kept.length [⟨kept.length, kept.length⟩] cs ∧
        ∃ d, source d ∧ kept = d.allRecords) := by
  unfold TalliesBackup
  split
  · rename_i h
    exact absurd h hprogress
  · rename_i b h
    exact absurd h (hidle b)
  · exact Iff.rfl

/-- Where no backup is under way, what there is to tell of it stays. -/
theorem TalliesBackup.rests (h : r.TalliesBackup cs kept finished source)
    (hplan : r'.plan = r.plan) (hidle : ∀ b, r.stage.progress ≠ .backingUp b)
    (hprogress : r'.stage.progress ≠ .before) (hidle' : ∀ b, r'.stage.progress ≠ .backingUp b) :
    r'.TalliesBackup cs kept finished source := by
  rw [talliesBackup_of_progress hprogress hidle', hplan]
  cases hp : r.stage.progress with
  | before =>
    rw [TalliesBackup, hp] at h
    obtain ⟨hunfinished, rfl, rfl, -⟩ := h
    exact Or.inl ⟨hunfinished, 0, .nil _⟩
  | backingUp b => exact absurd hp (hidle b)
  | failing | between | restoring | ended =>
    exact (talliesBackup_of_progress (by rw [hp]; nofun) (by rw [hp]; exact fun _ => nofun)).mp h

theorem Exhausts.of_calm {b : Backup} (h : r.Exhausts b kept) (hcalm : Calm r.bus r'.bus) :
    r'.Exhausts b kept := by
  obtain ⟨⟨d, rest, hd, hholds, hrest⟩, hprocessed⟩ := h
  obtain ⟨news, hears, hquiet⟩ := hcalm.quiet
  exact ⟨⟨d, rest, hd, hholds.of_hears hears hquiet, hrest⟩, hprocessed⟩

/-- Where a run gets no further, what there is to tell of the backup stays. -/
theorem TalliesBackup.stays (h : r.TalliesBackup cs kept finished source)
    (hplan : r'.plan = r.plan) (hprogress : r'.stage.progress = r.stage.progress)
    (hcalm : (∀ x, r.stage.progress ≠ .restoring x) → Calm r.bus r'.bus) :
    r'.TalliesBackup cs kept finished source := by
  cases hp : r.stage.progress with
  | before =>
    rw [TalliesBackup, hp] at h
    rw [TalliesBackup, hprogress, hp]
    exact ⟨h.1, h.2.1, h.2.2.1, (hcalm (by rw [hp]; exact fun _ => nofun)).proper h.2.2.2⟩
  | backingUp b =>
    rw [TalliesBackup, hp] at h
    rw [TalliesBackup, hprogress, hp, hplan]
    exact ⟨h.1, h.2.1, h.2.2.of_calm (hcalm (by rw [hp]; exact fun _ => nofun))⟩
  | failing | between | restoring | ended =>
    exact h.rests hplan (by rw [hp]; exact fun _ => nofun) (by rw [hprogress, hp]; nofun)
      (by rw [hprogress, hp]; exact fun _ => nofun)

/-- The archive goes on with what the source hands out. -/
theorem Exhausts.next {b : Backup} {answer : Option Record} {reader : Device.Reader}
    (h : r.Exhausts b kept)
    (read : b.reader.next (Device.Bus.sessionsWith refusals b.connection) r.bus
      = (.ok answer, reader, r'.bus)) (writer : Archive.Writer) :
    (kept ++ answer.toList).length ≤ b.total ∧
      r'.Exhausts { b with reader, writer, processed := (kept ++ answer.toList).length }
        (kept ++ answer.toList) := by
  obtain ⟨⟨d, rest, hd, hholds, hawaits, hall, htotal⟩, -⟩ := h
  obtain ⟨hheld, rest', rfl, hawaits'⟩ := hawaits.next hd hholds read
  rw [← List.append_assoc] at hall
  refine ⟨?_, ⟨d, rest', hd, hheld, hawaits', hall, htotal⟩, rfl⟩
  rw [htotal, hall]
  exact (List.prefix_append _ rest').length_le

/-- A step that does not close the archive goes on with what there is to tell of it. -/
theorem Counts.talliesBackup {shown shown' : List Count}
    (h : r.Counts (Device.Bus.sessionsWith refusals) r' shown shown')
    (hplan : r'.plan = r.plan) (hcalm : (∀ x, r.stage.progress ≠ .restoring x) → Calm r.bus r'.bus)
    (hgoing : ∀ b, r.stage ≠ .closing b (.ok ()))
    (hr : r.TalliesBackup cs kept finished source) :
    r'.TalliesBackup (cs ++ shown)
      (kept ++ (r.archives? (Device.Bus.sessionsWith refusals)).toList) finished source := by
  cases h with
  | stays progress _ _ archived =>
    rw [append_archives? archived, List.append_nil]
    exact hr.stays hplan progress hcalm
  | stops live idle progress _ archived =>
    rw [append_archives? archived, List.append_nil]
    exact hr.rests hplan idle (by rw [progress]; nofun)
      (by rw [progress]; exact fun _ => nofun)
  | @opensBackup _ _ b before progress catalog reader fresh total _ archived =>
    rw [TalliesBackup, before] at hr
    obtain ⟨hunfinished, rfl, rfl, hproper⟩ := hr
    rw [append_archives? archived, TalliesBackup, progress, hplan]
    obtain ⟨d, hd, hholds, hentries⟩ := Device.Bus.holds_of_catalog catalog
    have hd : d.Proper := (hcalm (by rw [before]; exact fun _ => nofun)).proper hproper d hd
    have htotal : b.total = d.allRecords.length := by
      rw [total, hentries, Device.length_allRecords]
    refine ⟨hunfinished, .begun _ _, ⟨d, d.allRecords, hd, hholds, ?_, rfl, htotal⟩, fresh⟩
    rw [reader, hentries]
    exact Device.Reader.awaits_catalog hd
  | @passes b reader before progress read _ archived =>
    rw [TalliesBackup, before] at hr
    obtain ⟨hunfinished, hshows, hexhausts⟩ := hr
    have hnext := (hexhausts.next read b.writer).2
    rw [append_archives? archived, List.append_nil, TalliesBackup, progress, hplan]
    rw [Option.toList_none, List.append_nil, ← hexhausts.processed] at hnext
    exact ⟨hunfinished, hshows, hnext⟩
  | @archives b reader record writer before progress read _ archived =>
    rw [TalliesBackup, before] at hr
    obtain ⟨hunfinished, hshows, hexhausts⟩ := hr
    obtain ⟨hle, hnext⟩ := hexhausts.next read writer
    rw [Option.toList_some, List.length_append, List.length_singleton] at hle hnext
    rw [archived, Option.toList_some, TalliesBackup, progress, hplan, hexhausts.processed,
      List.length_append, List.length_singleton]
    exact ⟨hunfinished, hshows.succ hle, hnext⟩
  | @fails b b' before progress _ archived =>
    rw [TalliesBackup, before] at hr
    rw [append_archives? archived, List.append_nil,
      talliesBackup_of_progress (by rw [progress]; nofun)
      (by rw [progress]; exact fun _ => nofun), hplan]
    exact Or.inl ⟨hr.1, _, hr.2.1⟩
  | closes stage => exact absurd stage (hgoing _)
  | opensRestore before progress | findsNone before progress | puts before progress
  | givesUp before progress | putsNot before progress | restoresAll before _ progress =>
    have hidle : ∀ b, r.stage.progress ≠ .backingUp b := by rw [before]; exact fun _ => nofun
    rw [append_archives? (archives?_of_progress hidle), List.append_nil]
    exact hr.rests hplan hidle (by rw [progress]; nofun)
      (by rw [progress]; exact fun _ => nofun)

/-- What is said of the source of the archive that was finished holds of more devices too. -/
theorem TalliesBackup.imp (h : r.TalliesBackup cs kept finished source)
    (hsource : ∀ d, source d → source' d) : r.TalliesBackup cs kept finished source' := by
  unfold TalliesBackup at h ⊢
  split at h
  · exact h
  · exact h
  · rcases h with h | ⟨hfinished, hshows, d, hd, hkept⟩
    · exact Or.inl h
    · exact Or.inr ⟨hfinished, hshows, d, hsource d hd, hkept⟩

theorem finishesArchive_of_closing {b : Backup} (hr : r.OnCourse)
    (hstage : r.stage = .closing b (.ok ())) (refusals : Device.Bus.Refusals) :
    r.FinishesArchive (.work refusals) := by
  rw [OnCourse, hstage] at hr
  exact ⟨b, hstage, hr.2.1 rfl⟩

/-- The archive that is finished has all records of the source. -/
theorem TalliesBackup.closes {b : Backup} (h : r.TalliesBackup cs kept finished source)
    (hr : r.OnCourse) (hstage : r.stage = .closing b (.ok ())) (refusals : Device.Bus.Refusals) :
    (r.turn (.work refusals)).TalliesBackup
      (cs ++ countsIn .backup r (r.turn (.work refusals))) kept True
      fun d => source d ∨ r.FinishesArchiveOf d (.work refusals) := by
  have hplan := r.plan_turn (.work refusals)
  have hturn : r.turn (.work refusals) = r.closeBackup b (.ok ()) := by
    simp only [turn, step, hstage]
  rw [OnCourse, hstage] at hr
  have hcount : countsIn .backup r (r.closeBackup b (.ok ())) = [⟨b.processed, b.total⟩] :=
    countsIn_of_status rfl (phase_of_entered [] hr.1)
  rw [TalliesBackup, hstage] at h
  obtain ⟨-, hshows, ⟨d, rest, -, ⟨n, d', hdrives, hholdings⟩, hawaits, hall, htotal⟩,
    hprocessed⟩ := h
  obtain rfl := hawaits.ended (hr.2.1 rfl)
  rw [List.append_nil] at hall
  rw [hprocessed, htotal, hall] at hcount
  rw [htotal, hall] at hshows
  have hbetween : (r.closeBackup b (.ok ())).stage.progress = .between := rfl
  rw [talliesBackup_of_progress (by simp [hturn, hbetween]) (by simp [hturn, hbetween]), hplan,
    hturn, hcount]
  refine Or.inr ⟨trivial, hshows.close, d', Or.inr ⟨b, n, hstage, hdrives⟩, ?_⟩
  rw [Device.allRecords_of_holdings hholdings, hall]

/-- Only at the turn at which the archive is finished is there its source to tell. -/
theorem TalliesBackup.turn (h : r.TalliesBackup cs kept finished source) (hr : r.OnCourse)
    (newcomers : ∀ info d, t = .incident (.plugIn info d) → d.Proper) :
    (r.turn t).TalliesBackup (cs ++ countsIn .backup r (r.turn t))
      (kept ++ (r.archivesAt? t).toList) (finished ∨ r.FinishesArchive t)
      fun d => source d ∨ r.FinishesArchiveOf d t := by
  have hmore : ∀ d, source d → source d ∨ r.FinishesArchiveOf d t := fun _ => Or.inl
  rcases r.turn_cases t with ⟨refusals, rfl, hmoves⟩ | ⟨ht, hstirs⟩
  · by_cases hclosing : ∃ b, r.stage = .closing b (.ok ())
    · obtain ⟨b, hb⟩ := hclosing
      have harchived : r.archivesAt? (.work refusals) = none := archives?_of_stage hb fun _ => nofun
      rw [eq_true (Or.inr (finishesArchive_of_closing hr hb refusals)), harchived,
        Option.toList_none, List.append_nil]
      exact h.closes hr hb refusals
    · rw [not_exists] at hclosing
      have hgoing : ¬ r.FinishesArchive (.work refusals) := fun ⟨b, hb, _⟩ => hclosing b hb
      rw [or_iff_left hgoing]
      exact ((counts_step hr _).talliesBackup hmoves.plan hmoves.calm hclosing h).imp hmore
  · have hgoing : ¬ r.FinishesArchive t := by
      cases t with
      | work refusals => exact absurd rfl (ht refusals)
      | incident | reply | leave => exact id
    rw [or_iff_left hgoing, archivesAt?_of_ne_work ht, Option.toList_none, List.append_nil,
      countsIn_of_posted (posted_turn ht), List.append_nil]
    exact (h.stays hstirs.plan hstirs.progress fun _ => calm_turn newcomers ht hstirs).imp hmore

theorem TalliesBackup.after {turns : List Turn} (h : r.TalliesBackup cs kept finished source)
    (hr : r.OnCourse)
    (newcomers : ∀ info d, .incident (.plugIn info d) ∈ turns → d.Proper) :
    (r.after turns).TalliesBackup (cs ++ r.counts .backup turns) (kept ++ r.archived turns)
      (finished ∨ r.ArchiveFinished turns) fun d => source d ∨ r.BackedUp d turns := by
  induction turns generalizing r cs kept finished source with
  | nil =>
    rw [counts, archived, List.append_nil, List.append_nil, ArchiveFinished, or_false]
    exact h.imp fun _ => Or.inl
  | cons t turns ih =>
    have hrest := ih (h.turn hr fun info d ht => newcomers info d (ht ▸ List.mem_cons_self))
      (hr.turn t) fun info d ht => newcomers info d (List.mem_cons_of_mem t ht)
    rw [List.append_assoc, List.append_assoc, or_assoc] at hrest
    exact hrest.imp fun _ => or_assoc.mp

end Run

end Palmtop.Migration
