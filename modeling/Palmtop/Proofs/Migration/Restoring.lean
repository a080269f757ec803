import Palmtop.Proofs.Archive.RoundTrip
import Palmtop.Proofs.Device.Reading
import Palmtop.Proofs.Device.Writing
import Palmtop.Proofs.Migration.Connecting

/-! # Restoring

What the archive serves is put into the destination record by record, and a record that is refused
takes the rest of its database with it (`Run.ends_restore`).  So a restore comes to its end whenever
the destination's writer, left alone with the records, gives up some databases and takes the others
(`Run.ends_restoring`).
-/
namespace Palmtop.Migration.Run

variable {world : Device.Bus} {Q : Run → Prop} {qs : List Question} {r : Run}
  {id : Device.ConnectionId}

/-! ## Moving the records -/

theorem step_restore (r : Run) (x : Restore) :
    (r.goTo (.working (.restore x))).step = (r.goTo (.working (.restore x))).restore x := rfl

/-- The status does not look at what is reported. -/
theorem continueRestore_postBlock (r : Run) (x : Restore) (text : String) (processed total : Nat)
    (stage : Stage) : ((r.goTo stage).postBlock text processed total).continueRestore x
      = ({ r with report := { r.report with restored := x.writer.written } }.postBlock text
          processed total).goTo (.checking (.restore x)) := by
  by_cases h : processed % r.plan.blockSize = 0
  · rw [postBlock, if_pos (show processed % (r.goTo stage).plan.blockSize = 0 from h), postBlock,
      if_pos h]
    rfl
  · rw [postBlock, if_neg (show ¬ processed % (r.goTo stage).plan.blockSize = 0 from h), postBlock,
      if_neg h]
    rfl

/-- A restore at the end of its archive gives the destination back. -/
theorem ends_restore_of_ended {x : Restore} (hended : x.cursor.atEnd = true)
    (next : ∀ r', r.Keeps r' → r'.bus = r.bus.release x.connection →
      (r'.goTo (.ending (.ok ()))).Ends world Q qs) :
    (r.goTo (.working (.restore x))).Ends world Q qs := by
  let e : Event := .status s!"Restored {x.destination.label}" x.processed x.total
  have hnext := next { r with bus := r.bus.release x.connection, posted := e :: r.posted }
    ⟨rfl, rfl, rfl, rfl, rfl⟩ rfl
  refine hnext.of_telling ?_ rfl rfl rfl
  rw [step_restore, restore, if_pos hended]
  rfl

/-- What the user is told of a database that is given up. -/
def givenUpText (database : String) (e : Device.Error) : String :=
  s!"Could not restore {database}: {e.message}. Skipping its remaining records."

/-- A restore that gives up these databases. -/
abbrev GivesUp (r : Run) (es : List (String × Device.Error)) (r' : Run) : Prop :=
  r.Tells (es.map (·.1)) (es.map fun p => givenUpText p.1 p.2).reverse r'

/-- A record that is refused takes the rest of its database with it. -/
theorem ends_restore_of_refused {x : Restore} {c : Archive.Cursor} {w : Device.Writer}
    {bus : Device.Bus} {y : Record} {e : Device.Error}
    (hgoes : x.cursor.atEnd = false) (hnext : x.cursor.next = (.ok (some y), c))
    (hput : (Device.Writer.consumer (Device.Bus.session x.connection)).put y (x.writer, r.bus)
      = (.error e, (w, bus)))
    (hmild : e.isFatal = false) (hcancelled : r.cancelled = false)
    (next : ∀ r', r.GivesUp [(y.database, e)] r' → r'.bus = bus →
      (r'.goTo (.working (.restore { x with cursor := c.skip, writer := w }))).Ends world Q qs) :
    (r.goTo (.working (.restore x))).Ends world Q qs := by
  have htransfer := transfer_of_refused
    (show Archive.Cursor.producer.next x.cursor = (.ok (some y), c) from hnext) hput
  let report : Report :=
    { r.report with skipped := r.report.skipped ++ [y.database], restored := w.written }
  have hrest := next
    { r with bus, report, posted := .error (givenUpText y.database e) :: r.posted }
    ⟨rfl, rfl, rfl, rfl, rfl⟩ rfl
  refine (hrest.checking hcancelled).of_telling ?_ rfl rfl rfl
  rw [step_restore, restore, if_neg (Bool.eq_false_iff.mp hgoes)]
  simp only [bus_goTo, htransfer, hmild]
  rfl

/-- The records the archive serves are put into the destination, which may have databases given
up. -/
theorem ends_restore {c : Archive.Cursor} {rs : List Record} {es : List (String × Device.Error)}
    {t v : Device.Writer × Device.Bus}
    (hgives : (Device.Writer.consumer (Device.Bus.session id)).GivesUp t rs es v)
    (hserves : Archive.Cursor.producer.Serves Archive.Cursor.skip c rs) {x : Restore}
    (hid : x.connection = id) (hc : c = x.cursor) (ht : t = (x.writer, r.bus))
    (hmild : ∀ p ∈ es, p.2.isFatal = false) (hcancelled : r.cancelled = false)
    (next : ∀ r', r.GivesUp es r' → r'.bus = v.2.release id →
      (r'.goTo (.ending (.ok ()))).Ends world Q qs) :
    (r.goTo (.working (.restore x))).Ends world Q qs := by
  induction hgives generalizing r x c with
  | nil t =>
    subst hc hid ht
    cases hserves with
    | ended hended =>
      exact ends_restore_of_ended hended fun r' h => next r' h.tells
    | @exhausted _ c' hgoes hnext hended =>
      -- one more step finds nothing, and only the one after it sees the end
      have htransfer := transfer_of_end
        (Device.Writer.consumer (Device.Bus.session x.connection)) (x.writer, r.bus) hnext
      let r₁ := { r with report := { r.report with restored := x.writer.written } }
      have hkeeps : r.Keeps r₁ := ⟨rfl, rfl, rfl, rfl, rfl⟩
      have hrest : (r₁.goTo (.working (.restore { x with cursor := c' }))).Ends world Q qs :=
        ends_restore_of_ended hended fun r' h => next r' (hkeeps.trans h).tells
      refine (hrest.checking hcancelled).of_step ?_ rfl rfl
      rw [step_restore, restore,
        if_neg (Bool.eq_false_iff.mp (show x.cursor.atEnd = false from hgoes))]
      simp only [bus_goTo, htransfer]
      rfl
  | @taken t u v y rs es hput hgives ih =>
    subst hc hid ht
    cases hserves with
    | @cons _ c₁ _ _ hgoes hnext hserves _ =>
      have htransfer := transfer_of_put hnext hput
      let x₁ : Restore := { x with cursor := c₁, writer := u.1, processed := x.processed + 1 }
      let r₀ := { r with bus := u.2, report := { r.report with restored := u.1.written } }
      let r₁ := r₀.postBlock (restoringText x.destination (c₁.current.getD "")) x₁.processed
        x₁.total
      have hbefore : r.Keeps r₀ := ⟨rfl, rfl, rfl, rfl, rfl⟩
      have hkeeps : r.Keeps r₁ := hbefore.trans (keeps_postBlock _ _ _)
      have hrest : (r₁.goTo (.working (.restore x₁))).Ends world Q qs :=
        ih hserves rfl rfl (by simp [r₁, x₁, r₀]) hmild (hkeeps.cancelled.trans hcancelled)
          fun r' h => next r' (by simpa using hkeeps.tells.trans h)
      refine Ends.of_block (hrest.checking (hkeeps.cancelled.trans hcancelled)) ?_ rfl rfl
      rw [step_restore, restore,
        if_neg (Bool.eq_false_iff.mp (show x.cursor.atEnd = false from hgoes))]
      simp only [bus_goTo, htransfer, if_true]
      exact continueRestore_postBlock { r with bus := u.2 } x₁ _ _ _ _
  | @refused t u v y rs es e hput hgives ih =>
    subst hc hid ht
    cases hserves with
    | @cons _ c₁ _ _ hgoes hnext _ hothers =>
      refine ends_restore_of_refused hgoes hnext hput (hmild _ List.mem_cons_self) hcancelled
        fun r₁ hgiven hbus => ?_
      refine ih hothers rfl rfl (by rw [hbus]) (fun p hp => hmild p (List.mem_cons_of_mem _ hp))
        (hgiven.cancelled.trans hcancelled) fun r' h => next r' ?_
      simpa [GivesUp] using Tells.trans hgiven h

/-! ## A whole restore -/

/-- The archive is counted and opened. -/
theorem openArchive_of_archived {rs : List Record}
    (h : Archive.Archived r.files r.plan.archivePath rs) (names : List String) :
    ∃ total c, r.openArchive names = .ok (total, c) ∧ c.Holds rs ∧ c.filter = some names := by
  obtain ⟨total, htotal⟩ := h.countRecords (some names)
  obtain ⟨c, hopen, hc, hfilter⟩ := h (some names)
  exact ⟨total, c, by simp only [openArchive, htotal, hopen], hc, hfilter⟩

/-- The worker holds the destination, and the archive is there: its records are put into the
destination, as far as this has the databases. -/
theorem ends_restoring {n m : Nat} {d d' : Device} {w : Device.Writer} {info : DeviceInfo}
    {rs : List Record} {es : List (String × Device.Error)} (pin : Pin)
    (hdrives : r.bus.Drives id n d) (hfree : r.bus.isFree id = true) (hd : d.Sound m)
    (harchived : Archive.Archived r.files r.plan.archivePath rs) (hgrouped : Grouped rs)
    (hgives : (Device.Writer.consumer Device.session).GivesUp
      ({ mode := r.plan.writeMode }, d.logged ⟨.catalog, true⟩)
      (rs.filter fun r => (d.databases.map (·.name)).contains r.database) es (w, d'))
    (hmild : ∀ p ∈ es, p.2.isFatal = false) (hcancelled : r.cancelled = false)
    (next : ∀ r', r.GivesUp es r' → r'.bus.devices[n]? = some d' → r.bus.Spares r'.bus pin n →
      (r'.goTo (.ending (.ok ()))).Ends world Q qs) :
    (r.goTo (.taking (.destination info) id)).Ends world Q qs := by
  obtain ⟨bus, hacquire, hbus, hspares⟩ := hdrives.acquire hfree pin
  let listed := d.logged ⟨.catalog, true⟩
  have hlisted : (Device.Bus.session id).catalog bus = (.ok d.listing, bus.setDevice n listed) :=
    hbus.catalog hd
  have hnames : d.listing.map (·.name) = d.databases.map (·.name) := by
    rw [Device.listing, List.map_map]
    rfl
  obtain ⟨total, c, hopen, hholds, hfilter⟩ :=
    openArchive_of_archived harchived (d.listing.map (·.name))
  obtain ⟨database, c₁, hpeek, hserves⟩ := hholds.peek hgrouped
  have hgives := Device.Writer.givesUp_embeds hbus.embeds hgives
  have hpassed : (rs.filter fun r => (d.databases.map (·.name)).contains r.database)
      = rs.filter (Archive.passes c.filter ·.database) := by
    rw [hfilter, hnames]
    rfl
  rw [hpassed] at hgives
  let x : Restore :=
    { destination := info, connection := id, cursor := c₁, total
      writer := { mode := r.plan.writeMode } }
  have hmoving : ∀ r₁ : Run, r.Keeps r₁ → r₁.bus = bus.setDevice n listed →
      (r₁.goTo (.working (.restore x))).Ends world Q qs := fun r₁ hkeeps hbus₁ => by
    refine ends_restore hgives hserves rfl rfl (by rw [hbus₁]) hmild
      (hkeeps.cancelled.trans hcancelled) fun r₂ hgiven hbus₂ => ?_
    obtain ⟨hdrives₂, hspares₂⟩ := (hbus.setDevice d').release pin
    refine next r₂ (by simpa using hkeeps.tells.trans hgiven) (hbus₂ ▸ hdrives₂.device) ?_
    rw [hbus₂]
    exact (hspares.trans (Device.Bus.spares_setDevice bus pin n d')).trans hspares₂
  let taken := { r with bus }.goTo (.taking (.destination info) id)
  have htaken : (r.goTo (.taking (.destination info) id)).step = taken.openRestore info id := by
    simp only [step, goTo, hacquire, taken]
  have hopen : taken.openArchive (d.listing.map (·.name)) = .ok (total, c) := hopen
  cases database with
  | none =>
    have hrest := hmoving { r with bus := bus.setDevice n listed } ⟨rfl, rfl, rfl, rfl, rfl⟩ rfl
    refine hrest.of_step ?_ rfl rfl
    rw [htaken, openRestore, bus_goTo, hlisted]
    simp only [hopen, hpeek]
    rfl
  | some database =>
    let e : Event := .status (restoringText info database) 0 total
    have hrest := hmoving { r with bus := bus.setDevice n listed, posted := e :: r.posted }
      ⟨rfl, rfl, rfl, rfl, rfl⟩ rfl
    refine hrest.of_telling ?_ rfl rfl rfl
    rw [htaken, openRestore, bus_goTo, hlisted]
    simp only [hopen, hpeek]
    rfl

end Palmtop.Migration.Run
