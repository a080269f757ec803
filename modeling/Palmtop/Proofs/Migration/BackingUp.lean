import Palmtop.Proofs.Archive.RoundTrip
import Palmtop.Proofs.Device.Reading
import Palmtop.Proofs.Migration.Connecting

/-! # Backing up

What the source's reader yields and the archive takes is moved record by record
(`Run.ends_backUp`), and so a backup of a device that is ready leaves an archive of all its records
and the device as it was (`Run.ends_backup`).
-/
namespace Palmtop.Migration.Run

variable {world : Device.Bus} {Q : Run → Prop} {qs : List Question} {r : Run}

/-! ## Moving the records -/

theorem step_backUp (r : Run) (b : Backup) :
    (r.goTo (.working (.backUp b))).step = (r.goTo (.working (.backUp b))).backUp b := rfl

/-- A backup at the end of its reader is closed. -/
theorem ends_backUp_of_ended {b : Backup} (hended : b.reader.ended = true)
    (h : (r.goTo (.closing b (.ok ()))).Ends world Q qs) :
    (r.goTo (.working (.backUp b))).Ends world Q qs := by
  refine h.of_step ?_ rfl rfl
  rw [step_backUp, backUp, if_pos hended]
  rfl

/-- The records the reader yields are moved into the archive that takes them. -/
theorem ends_backUp {id : Device.ConnectionId} {s s' : Device.Reader × Device.Bus}
    {rs : List Record} (hy : (Device.Reader.producer (Device.Bus.session id)).Yields s rs s')
    {b : Backup} {w : Archive.Writer} (hid : b.connection = id) (hs : s = (b.reader, r.bus))
    (htakes : Archive.Writer.consumer.Takes b.writer rs w) (hcancelled : r.cancelled = false)
    (next : ∀ r' b', r.Keeps r' → r'.files = r.files → r'.bus = s'.2 → b'.connection = id →
      b'.writer = w → (r'.goTo (.closing b' (.ok ()))).Ends world Q qs) :
    (r.goTo (.working (.backUp b))).Ends world Q qs := by
  induction hy generalizing r b with
  | @ended s hended =>
    subst hs
    cases htakes
    exact ends_backUp_of_ended hended (next r b ⟨rfl, rfl, rfl, rfl, rfl⟩ rfl rfl hid rfl)
  | @exhausted s t hgoes hnext hended =>
    -- one more step finds nothing, and only the one after it sees the end
    subst hs
    cases htakes
    subst hid
    have htransfer := transfer_of_end Archive.Writer.consumer b.writer hnext
    have hrest : ({ r with bus := t.2 }.goTo (.working (.backUp { b with reader := t.1 }))).Ends
        world Q qs :=
      ends_backUp_of_ended hended (next _ _ ⟨rfl, rfl, rfl, rfl, rfl⟩ rfl rfl rfl rfl)
    refine (hrest.checking hcancelled).of_step ?_ rfl rfl
    rw [step_backUp, backUp, if_neg (Bool.eq_false_iff.mp (show b.reader.ended = false from hgoes))]
    simp only [goTo, htransfer]
  | @cons s u t x rs hgoes hnext hy ih =>
    subst hs
    cases htakes with
    | @cons _ w₁ _ _ _ hput htakes =>
      subst hid
      have htransfer := transfer_of_put hnext hput
      let b₁ : Backup := { b with reader := u.1, writer := w₁, processed := b.processed + 1 }
      let r₁ := { r with bus := u.2 }.postBlock
        (backingUpText r.plan.source (u.1.current?.getD "")) b₁.processed b₁.total
      have hbus : r.Keeps { r with bus := u.2 } := ⟨rfl, rfl, rfl, rfl, rfl⟩
      have hkeeps : r.Keeps r₁ := hbus.trans (keeps_postBlock _ _ _)
      have hrest : (r₁.goTo (.working (.backUp b₁))).Ends world Q qs :=
        ih rfl (by simp [r₁, b₁]) htakes (hkeeps.cancelled.trans hcancelled)
          fun r' b' h hf => next r' b' (hkeeps.trans h) (hf.trans (files_postBlock _ _ _))
      refine Ends.of_block (hrest.checking (hkeeps.cancelled.trans hcancelled)) ?_ rfl rfl
      rw [step_backUp, backUp,
        if_neg (Bool.eq_false_iff.mp (show b.reader.ended = false from hgoes))]
      simp only [bus_goTo, htransfer]
      exact goTo_postBlock { r with bus := u.2 } _ _ _ _ _

/-! ## A whole backup -/

/-- The archive is finished and the source given back. -/
theorem ends_closing {b : Backup} (next : ∀ r', r.Keeps r' →
      r'.files = (b.writer.finish r.files).2 → r'.bus = r.bus.release b.connection →
      (r'.goTo (.checking .enterResolve)).Ends world Q qs) :
    (r.goTo (.closing b (.ok ()))).Ends world Q qs := by
  let report : Report :=
    { r.report with backedUp := b.processed, archivePath := some r.plan.archivePath }
  let e : Event := .status s!"Backed up {r.plan.source.label}" b.processed b.total
  have hnext := next { r with
    bus := r.bus.release b.connection, files := (b.writer.finish r.files).2, report
    posted := e :: r.posted } ⟨rfl, rfl, rfl, rfl, rfl⟩ rfl rfl
  exact hnext.of_telling rfl rfl rfl rfl

/-- The worker holds the source and has opened the archive. -/
theorem ends_backup {id : Device.ConnectionId} {n m : Nat} {d : Device} (pin : Pin)
    (hdrives : r.bus.Drives id n d) (hfree : r.bus.isFree id = true) (hd : d.Ready m)
    (hmake : Archive.Makeable r.files r.plan.archivePath d.allRecords)
    (hcancelled : r.cancelled = false)
    (next : ∀ r' d', r.Keeps r' → Archive.Archived r'.files r.plan.archivePath d.allRecords →
      r'.bus.devices[n]? = some d' → d.Observed d' → r.bus.Spares r'.bus pin n →
      (r'.goTo (.checking .enterResolve)).Ends world Q qs) :
    (r.goTo (.taking .source id)).Ends world Q qs := by
  obtain ⟨bus, hacquire, hbus, hspares⟩ := hdrives.acquire hfree pin
  obtain ⟨w, files, w', hcreate, htakes, harchived⟩ := hmake.archived
  let listed := d.logged ⟨.catalog, true⟩
  have hlisted : (Device.Bus.session id).catalog bus = (.ok d.listing, bus.setDevice n listed) :=
    hbus.catalog hd.sound
  obtain ⟨reader, d', hyields, hobserved⟩ :=
    Device.Reader.yields_catalog (((Device.observed_self d).logged _).ready hd)
  have hyields := Device.Reader.yields_embeds hbus.embeds hyields
  let b : Backup :=
    { connection := id, reader := .ofNames (d.listing.map (·.name)), writer := w
      total := d.listing.foldr (·.recordCount + ·) 0 }
  let r₁ := { r with bus := bus.setDevice n listed, files }.post
    (.status s!"Backing up {r.plan.source.label}" 0 b.total)
  have hmoving : (r₁.goTo (.working (.backUp b))).Ends world Q qs := by
    refine ends_backUp hyields rfl rfl htakes hcancelled fun r₂ b₂ hkeeps hfiles hbus₂ hid hw => ?_
    refine ends_closing fun r₃ hkeeps₃ hfiles₃ hbus₃ => ?_
    have hdrives₂ : r₂.bus.Drives id n d' := hbus₂ ▸ hbus.setDevice d'
    have hkeeps₁ : r.Keeps r₁ := ⟨rfl, rfl, rfl, rfl, rfl⟩
    obtain ⟨hdrives₃, hspares₃⟩ := hdrives₂.release pin
    rw [hid] at hbus₃
    refine next r₃ d' ((hkeeps₁.trans hkeeps).trans hkeeps₃) ?_ (hbus₃ ▸ hdrives₃.device)
      hobserved ?_
    · rw [hfiles₃, hw, hfiles]
      exact harchived
    · rw [hbus₃]
      refine (hspares.trans ?_).trans hspares₃
      rw [hbus₂]
      exact Device.Bus.spares_setDevice bus pin n d'
  refine hmoving.of_telling ?_ rfl rfl rfl
  simp only [step, goTo, hacquire, openBackup, hlisted, hcreate]
  rfl

end Palmtop.Migration.Run
