import Palmtop.Proofs.Device.Isolation
import Palmtop.Proofs.Migration.Completion

/-! # A migration into a device with faults

Some databases of the destination are made read-only, refuse writes, additions or their slot table.
The migration completes all the same (`Run.ends_takenOver`): a database in which a record is refused
is given up, which the user is told, and the others come to hold what they hold after the same
migration into the device without these faults (`Dialogue.migrates_isolated`).
-/
namespace Palmtop.Migration

/-! ## The worker -/

/-- The worker comes to the end of a migration into a device with faults, and gives up the databases
in which a record is refused. -/
theorem Run.ends_takenOver {plan : Plan} {bus : Device.Bus} {files : Files}
    {destination : DeviceInfo} {s d : Device} {m n : Nat} (hs : bus.Offers plan.source.pin m s)
    (hsReady : s.Ready 0) (hd : bus.Offers destination.pin n d)
    (hdSound : d.Sound s.allRecords.length) (hpin : destination.pin ≠ plan.source.pin)
    (hmn : n ≠ m) (hmake : Archive.Makeable files plan.archivePath s.allRecords)
    (hsLock : ∀ lock, s.lock = some lock → Opens lock)
    (hdLock : ∀ lock, d.lock = some lock → Opens lock)
    (hadmits : plan.AdmitsDestination destination) :
    ∃ d', Device.TakenOver plan.writeMode s.databases d d' ∧ ({ plan, bus, files } : Run).Ends bus
      (Concludes plan destination s m n (d.refusals plan.writeMode s.databases) d')
      (plan.questions bus destination s d) := by
  -- the destination is asked for its catalog before the writer begins
  obtain ⟨w, d', hgives, htaken⟩ := Device.Writer.givesUp_allRecords plan.writeMode
    hsReady.proper (Device.sound_logged (e := ⟨.catalog, true⟩).mpr hdSound)
  exact ⟨d', htaken.of_logged, ends_migrating hs hsReady hd hdSound hpin hmn hmake hsLock hdLock
    hadmits hgives Device.refusals_mild⟩

/-! ## Worker and attendant -/

/-- What the worker comes to alone, it comes to in every dialogue with a user who replies. -/
theorem Dialogue.of_ends {π : Type} {p : Prompter π} {limit : Nat} {plan : Plan}
    {bus : Device.Bus} {files : Files} {user : π} {Q : Run → Prop} {qs : List Question}
    (hends : ({ plan, bus, files } : Run).Ends bus Q qs) (hreplies : p.Gives limit bus qs user)
    {schedule : Nat → Move} (fair : Fair schedule) :
    ∃ N, ∀ k, N ≤ k →
      let start : Dialogue π := { run := { plan, bus, files }, user }
      let run := (start.moves p limit ((List.range k).map schedule)).run
      run.isOver = true ∧ Q run := by
  obtain ⟨k, hcompletes⟩ := hends
  have hheads : Dialogue.Heads p limit bus Q k { run := { plan, bus, files }, user } :=
    .working qs ⟨rfl, Nat.zero_le _⟩ rfl hreplies hcompletes
  obtain ⟨N, hN⟩ := hheads.completes fair
  refine ⟨N, fun k hk => ?_⟩
  obtain ⟨hfinished, hQ⟩ := hN k hk
  exact ⟨by rw [Run.isOver, hfinished], hQ⟩

/-- The passwords asked for are the same whatever else the destination is like. -/
theorem Plan.questions_setDevice {d d' : Device} (h : d'.lock = d.lock) (plan : Plan)
    (bus : Device.Bus) (n : Nat) (destination : DeviceInfo) (s : Device) :
    plan.questions (bus.setDevice n d') destination s d'
      = plan.questions bus destination s d := by
  rw [questions, questions, passwordQuestion, passwordQuestion, passwordQuestion, passwordQuestion,
    h]
  rfl

/-- **Isolation.**  Whatever faults are switched on for databases of the destination, a migration
completes.  What it gives up are the databases in which a record was refused, each once and in the
order of the source, with one error for each; the others come to hold what they hold after the
same migration without the faults. -/
theorem Dialogue.migrates_isolated {π : Type} {p : Prompter π} {limit : Nat} {plan : Plan}
    {bus : Device.Bus} {files : Files} {user : π} {destination : DeviceInfo} {s d : Device}
    {m n : Nat} (sourceOffered : bus.Offers plan.source.pin m s)
    (destinationOffered : bus.Offers destination.pin n d)
    (pins : destination.pin ≠ plan.source.pin) (devices : n ≠ m) (sourceReady : s.Ready 0)
    (destinationReady : d.Ready s.allRecords.length)
    (makeable : Archive.Makeable files plan.archivePath s.allRecords)
    (sourceLock : ∀ lock, s.lock = some lock → Opens lock)
    (destinationLock : ∀ lock, d.lock = some lock → Opens lock)
    (admits : plan.AdmitsDestination destination)
    (replies : p.Gives limit bus (plan.questions bus destination s d) user)
    (faults : String → Device.Ailment)
    {schedule schedule' : Nat → Move} (fair : Fair schedule) (fair' : Fair schedule') :
    ∃ N, ∀ k, N ≤ k →
      let start (bus : Device.Bus) : Dialogue π := { run := { plan, bus, files }, user }
      let run := ((start (bus.setDevice n (d.afflict faults))).moves p limit
        ((List.range k).map schedule)).run
      let usual := ((start bus).moves p limit ((List.range k).map schedule')).run
      let given := (d.afflict faults).refusals plan.writeMode s.databases
      run.isOver = true ∧ run.phase = .done ∧ run.report.outcome = .completed ∧
      run.report.skipped = given.map (·.1) ∧
      run.errors = (given.map fun g => Run.givenUpText g.1 g.2).reverse
        ++ plan.warnings destination ∧
      usual.isOver = true ∧
      ∃ d₁ d₂, run.bus.devices[n]? = some d₁ ∧ usual.bus.devices[n]? = some d₂ ∧
        Device.Isolated plan.writeMode s d faults d₁ d₂ given := by
  let world := bus.setDevice n (d.afflict faults)
  have hreplies : p.Gives limit world (plan.questions world destination s (d.afflict faults))
      user := by
    rw [Plan.questions_setDevice (Device.lock_afflict faults d)]
    exact replies.of_looksLike ⟨rfl, rfl⟩
  obtain ⟨d₂, htaken₂, hends₂⟩ := Run.ends_takenOver sourceOffered sourceReady destinationOffered
    destinationReady.sound pins devices makeable sourceLock destinationLock admits
  obtain ⟨d₁, htaken₁, hends₁⟩ := Run.ends_takenOver
    (sourceOffered.setDevice_of_ne (Ne.symm devices) (d.afflict faults)) sourceReady
    (destinationOffered.setDevice (d.afflict faults)) (destinationReady.sound.afflict faults) pins
    devices makeable sourceLock destinationLock admits
  obtain ⟨N₁, hN₁⟩ := Dialogue.of_ends hends₁ hreplies fair
  obtain ⟨N₂, hN₂⟩ := Dialogue.of_ends hends₂ replies fair'
  refine ⟨max N₁ N₂, fun k hk => ?_⟩
  obtain ⟨hover₁, h₁⟩ := hN₁ k (le_of_max_le_left hk)
  obtain ⟨hover₂, h₂⟩ := hN₂ k (le_of_max_le_right hk)
  exact ⟨hover₁, h₁.phase, h₁.outcome, h₁.skipped, h₁.errors, hover₂, d₁, d₂, h₁.destination,
    h₂.destination, htaken₁.isolated htaken₂ sourceReady.proper destinationReady⟩

/-- A device takes no new memos: of two, the first is there already and is overwritten, the second is
refused, and the task is put where it belongs all the same. -/
theorem Dialogue.migrates_isolated_memos :
    let record (database : String) (id : UniqueId) (content : List UInt8) : Record :=
      ⟨database, id, 0, ⟨content.toArray⟩⟩
    let s : Device :=
      { databases := [
          { name := "Memos"
            records := Slots.numbered 0 [record "Memos" 7 [1], record "Memos" 8 [2, 3]] },
          { name := "Tasks", records := Slots.numbered 0 [record "Tasks" 9 [5]] }]
        lock := some ⟨"1234", 3⟩ }
    let d : Device :=
      { databases := [
          { name := "Memos", records := Slots.numbered 0 [record "Memos" 7 [4]] },
          { name := "Tasks" }]
        renumbering := true }
    let faults (name : String) : Device.Ailment := { failingAdds := name == "Memos" }
    let plan : Plan :=
      { source := ⟨1, "Old"⟩, archivePath := ⟨"backup.tar"⟩, writeMode := .addAndOverwrite }
    let bus := (({} : Device.Bus).plugIn plan.source s).plugIn ⟨2, "New"⟩ d
    let user : Script :=
      { passwords := [some "1234"], choices := [some { destination := ⟨2, "New"⟩ }] }
    ∃ N, ∀ k, N ≤ k →
      let start (bus : Device.Bus) : Dialogue Script := { run := { plan, bus, files := {} }, user }
      let run := ((start (bus.setDevice 1 (d.afflict faults))).moves Script.prompter 1
        ((List.range k).map byTurns)).run
      let usual := ((start bus).moves Script.prompter 1 ((List.range k).map byTurns)).run
      run.isOver = true ∧ run.phase = .done ∧ run.report.outcome = .completed ∧
      run.report.skipped = ["Memos"] ∧
      run.errors = ["Could not restore Memos: device rejected command: add to Memos refused. " ++
        "Skipping its remaining records."] ∧
      usual.isOver = true ∧
      ∃ d₁ d₂, run.bus.devices[1]? = some d₁ ∧ usual.bus.devices[1]? = some d₂ ∧
        Device.Isolated plan.writeMode s d faults d₁ d₂
          [("Memos", .rejected "add to Memos refused")] := by
  intro record s d faults plan bus user
  have hmake : Archive.Makeable {} plan.archivePath s.allRecords :=
    Archive.makeable_plain "backup.tar" _ (by decide +kernel) (by decide +kernel)
      (by decide +kernel) (by decide +kernel) (by decide +kernel) (by decide) (by decide +kernel)
      (by decide) (by decide)
  have hsource : bus.Offers plan.source.pin 0 s := ⟨rfl, Or.inl ⟨rfl, rfl⟩⟩
  have hdestination : bus.Offers (DeviceInfo.mk 2 "New").pin 1 d := ⟨rfl, Or.inl ⟨rfl, rfl⟩⟩
  have hopens : ∀ lock, s.lock = some lock → Opens lock := by
    rintro _ ⟨⟩
    exact ⟨by decide, by decide⟩
  have hreplies : Script.prompter.Gives 1 bus (plan.questions bus ⟨2, "New"⟩ s d) user :=
    Script.gives_password _ _ rfl fun w _ hw =>
      Script.gives_destination (by decide) rfl hw fun _ _ _ => trivial
  have hgiven : (d.afflict faults).refusals plan.writeMode s.databases
      = [("Memos", .rejected "add to Memos refused")] := by decide +kernel
  have hisolated := migrates_isolated hsource hdestination (by decide) (by decide)
    ⟨by decide, by decide, by decide⟩ ⟨by decide, by decide, by decide⟩ hmake hopens (by simp [d])
    (Or.inr (by simp [plan])) hreplies faults fair_byTurns fair_byTurns
  rw [hgiven] at hisolated
  exact hisolated

end Palmtop.Migration
