import Palmtop.Proofs.Migration.Keeping

/-! # The report tells what happened

However a migration comes to its end, whatever is refused on the way, whenever it is cancelled and
whatever is answered, its report agrees with what went on (`Run.Reports`): with the phases entered,
the records that the archive accepted, those that the destination stored, and the turn at which the
archive was finished.

What is in the archive is another matter, as it is a file that others can write.  If nobody else
does, and if it can be read back at all, no database is skipped twice; and if nobody removes it, it
holds what was accepted (`Run.Undisturbed`).
-/
namespace Palmtop.Migration.Run

/-- In the course of these turns all devices are proper, nobody else writes files, and what the
archive accepts can be read back. -/
structure Undisturbed (start : Run) (turns : List Turn) : Prop where
  devices : ∀ d ∈ start.bus.devices, d.Proper
  newcomers : ∀ info d, .incident (.plugIn info d) ∈ turns → d.Proper
  unwritten : ∀ t ∈ turns, t.writesFile = false
  fits : Archive.Fits start.plan.archivePath (start.archived turns)

/-- The report of a migration that is over tells what happened in the course of these turns. -/
structure Reports (start : Run) (turns : List Turn) (r : Run) : Prop where
  /-- The phases begin in their order, all of them if the migration went through, and the last one
  says how it went. -/
  phases : ∃ entered last, r.Entered (entered ++ [last]) ∧ entered <+: Phase.course ∧
    (r.report.outcome = .completed → entered = Phase.course) ∧ last.isTerminal = true ∧
    (last = .done ↔ r.report.outcome = .completed)
  cancelled : r.report.outcome = .cancelled → r.cancelled = true
  backedUp : r.report.backedUp = (start.archived turns).length
  /-- The device that was restored into stored so many records, and no other stored any. -/
  restored : Tallies r.report.restored
    (fun n => (start.told n turns).countP Device.Exchange.stores)
    (fun n => start.RestoredInto n turns)
  skipped : start.Undisturbed turns → r.report.skipped.Nodup
  path : ∀ p, r.report.archivePath = some p ↔
    p = start.plan.archivePath ∧ start.ArchiveFinished turns
  archive : start.Undisturbed turns → (∀ t ∈ turns, t.removesFile = false) →
    ∀ p, r.report.archivePath = some p → ∃ members,
      Archive.load r.files p = .ok ⟨members, false⟩ ∧ members.length = r.report.backedUp ∧
      List.Forall₂ Archive.Writer.Stored members (start.archived turns)

variable {start : Run} {turns : List Turn} {lost : Prop}

theorem Undisturbed.fair (h : start.Undisturbed turns)
    (hlost : ∀ t ∈ turns, t.removesFile = true → lost) : ∀ t ∈ turns, t.Fair lost :=
  fun t ht => ⟨h.unwritten t ht, hlost t ht, fun info d hplug => h.newcomers info d (hplug ▸ ht)⟩

/-- An undisturbed migration comes to its end with the archive that it finished, and has skipped no
database twice. -/
theorem Undisturbed.ended (h : start.Undisturbed turns) (haccounts : start.Accounts [])
    (hbefore : start.stage.progress = .before)
    (hended : (start.after turns).stage.progress = .ended)
    (hlost : ∀ t ∈ turns, t.removesFile = true → lost) :
    (∀ p, (start.after turns).report.archivePath = some p →
      (start.after turns).Filed lost (start.archived turns)) ∧
    (start.after turns).report.skipped.Nodup := by
  have hstart : start.KeepsArchive lost [] := by
    rw [KeepsArchive, hbefore]
    exact h.devices
  have hkeeps := hstart.after haccounts h.fits (h.fair hlost)
  rwa [KeepsArchive, hended] at hkeeps

/-- **The report tells the truth.**  Of whatever turns a migration comes to its end by, its report
tells what happened. -/
theorem reports_of_finished (plan : Plan) (bus : Device.Bus) (files : Files) (turns : List Turn) :
    let start : Run := { plan, bus, files }
    let r := start.after turns
    r.stage = .finished → start.Reports turns r := by
  intro start r hfinished
  have hprogress : r.stage.progress = .ended := by rw [hfinished]; rfl
  have hplan : r.plan = plan := plan_after start turns
  have hcourse : start.OnCourse := onCourse_start plan bus files
  have haccounts : start.Accounts [] := ⟨rfl, rfl⟩
  obtain ⟨entered, last, hended⟩ : ∃ entered last, r.Ended entered last := by
    have hr := after_of_turn (fun r t (h : r.OnCourse) => h.turn t) hcourse turns
    rwa [OnCourse, hfinished] at hr
  have hbackedUp : r.report.backedUp = (start.archived turns).length := by
    have hr := haccounts.after turns
    rwa [Accounts, hprogress] at hr
  have htallies := ((balances_start plan bus files).after turns).tallies
  simp only [Nat.add_zero, false_or] at htallies
  have hpath : r.ReportsPath (False ∨ start.ArchiveFinished turns) :=
    ReportsPath.after ⟨False.elim, fun _ => rfl⟩ hcourse turns
  rw [false_or] at hpath
  have hpath_iff (p : Path) : r.report.archivePath = some p ↔
      p = plan.archivePath ∧ start.ArchiveFinished turns := by
    rw [hpath.iff, hplan]
  refine
    { phases := ⟨entered, last, hended.entered, hended.ordered, hended.completed, hended.terminal,
        hended.done⟩
      cancelled := hended.cancelled
      backedUp := hbackedUp
      restored := htallies
      skipped := fun h => (h.ended haccounts rfl hprogress fun _ _ _ => trivial).2
      path := hpath_iff
      archive := fun h hkept p hp => ?_ }
  have hnever : ∀ t ∈ turns, t.removesFile = true → False := fun t ht => by simp [hkept t ht]
  obtain ⟨-, hfiled⟩ := (h.ended haccounts rfl hprogress hnever).1 p hp
  rcases hfiled.load with ⟨members, hload, hstored⟩ | ⟨hlost, -⟩
  · rw [hplan, ← ((hpath_iff p).mp hp).1] at hload
    exact ⟨members, hload, hstored.length_eq.trans hbackedUp.symm, hstored⟩
  · exact hlost.elim

/-- The backup of two memos is through when the migration is cancelled: it has entered one phase and
restored nothing, and both memos are in the archive. -/
theorem reports_of_finished_cancelled :
    let memo (id : UniqueId) (content : List UInt8) : Record := ⟨"Memos", id, 0, ⟨content.toArray⟩⟩
    let s : Device :=
      { databases := [{ name := "Memos", records := Slots.numbered 0 [memo 7 [1], memo 8 [2, 3]] }] }
    let plan : Plan :=
      { source := ⟨1, "Old"⟩, destination := some ⟨2, "New"⟩, archivePath := ⟨"backup.tar"⟩ }
    let bus := (({} : Device.Bus).plugIn plan.source s).plugIn ⟨2, "New"⟩ {}
    let start : Run := { plan, bus, files := {} }
    let work : Turn := .work fun _ _ _ => none
    let turns := List.replicate 13 work ++ [.incident .cancel, work, work]
    let r := start.after turns
    r.stage = .finished ∧ start.archived turns = [memo 7 [1], memo 8 [2, 3]] ∧
      start.Undisturbed turns ∧ r.report = ⟨.cancelled, 2, 0, [], some ⟨"backup.tar"⟩⟩ ∧
      start.Reports turns r := by
  intro memo s plan bus start work turns r
  have hfinished : r.stage = .finished := finished_of_isOver (by decide +kernel)
  have harchived : start.archived turns = [memo 7 [1], memo 8 [2, 3]] := by decide +kernel
  have hplain : Archive.Compression.ofPath plan.archivePath = .plain := by decide +kernel
  have hproper : ∀ d ∈ start.bus.devices, d.Proper := by decide +kernel
  have hunwritten : ∀ t ∈ turns, t.writesFile = false := by decide +kernel
  refine ⟨hfinished, harchived, ⟨hproper, fun info d hplug => ?_, hunwritten, ?_, ?_⟩,
    by decide +kernel, reports_of_finished plan bus {} turns hfinished⟩
  · simp [turns, work] at hplug
  · rw [hplain]
    exact fun _ => rfl
  · rw [harchived]
    decide +kernel

end Palmtop.Migration.Run
