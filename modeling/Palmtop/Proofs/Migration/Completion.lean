import Palmtop.Migration.Script
import Palmtop.Proofs.Migration.BackingUp
import Palmtop.Proofs.Migration.Dialogue
import Palmtop.Proofs.Migration.Restoring

/-! # A migration comes to its end

From a source and a destination that are ready, with a user who gives the passwords and names the
destination, a migration completes: the source is as it was, and the destination has become what
the write mode prescribes.  This holds whatever the order in which worker and attendant move.
-/
namespace Palmtop.Migration

/-- The migration is free to go to this destination: the plan names it, or no other but the source,
which counts as none. -/
def Plan.AdmitsDestination (plan : Plan) (destination : DeviceInfo) : Prop :=
  plan.destination = some destination ∨ ∀ info ∈ plan.destination, info.pin = plan.source.pin

/-- The questions of a migration from a device into another, and the right replies: the password of
the source, the destination unless the plan names it, and the password of the destination. -/
def Plan.questions (plan : Plan) (bus : Device.Bus) (destination : DeviceInfo) (s d : Device) :
    List Question :=
  passwordQuestion bus plan.source s ++
    ((if plan.destination = some destination then []
      else [(.destinationRequest plan.source, .destination destination)]) ++
    passwordQuestion bus destination d)

/-- What the user is told before being asked for a destination: the source is none. -/
def Plan.warnings (plan : Plan) (destination : DeviceInfo) : List String :=
  match plan.destination with
  | none => []
  | some info =>
    if info = destination then []
    else [s!"Cannot restore {plan.source.label} into itself, choose another device"]

/-- What a migration of one device into another makes of the two. -/
structure Migrated (mode : WriteMode) (source destination source' destination' : Device) :
    Prop where
  unchanged : source'.databases = source.databases
  names : ∀ name, destination'.named? name = none ↔ destination.named? name = none
  untouched : ∀ name, source.contents name = [] →
    destination'.named? name = destination.named? name
  prescribed : ∀ name, destination.named? name ≠ none → source.contents name ≠ [] →
    Device.Prescribed mode (destination.contents name) (source.contents name)
      (destination'.contents name)

namespace Run

variable {world : Device.Bus} {Q : Run → Prop} {qs : List Question} {r : Run}

/-! ## Settling on the destination -/

/-- The user is asked and names the destination. -/
theorem ends_ask {destination : DeviceInfo} (hpin : destination.pin ≠ r.plan.source.pin)
    (hcancelled : r.cancelled = false) (hlistening : r.listening = true)
    (hworld : LooksLike world r.bus)
    (next : ((r.post (.destinationRequest r.plan.source)).goTo
      (.checking (.enterRestore destination))).Ends world Q qs) :
    (r.goTo (.checking .ask)).Ends world Q
      ((.destinationRequest r.plan.source, .destination destination) :: qs) := by
  let q : Question := (.destinationRequest r.plan.source, .destination destination)
  let asked := r.post q.1
  have hstep : (r.goTo (.working .ask)).step
      = asked.goTo (.awaitingDestination { answering := true }) := by
    simp only [step, goTo, perform, ask, post, hlistening, asked, q]
  have hanswered : ((asked.goTo (.awaitingDestination { answering := true })).receive
      (some q.2)).step = asked.goTo (.checking (.enterRestore destination)) := by
    simp [receive, answerDestination, goTo, step, asked, post, hcancelled, Handoff.waitOrCancel,
      Handoff.wait, Handoff.answer, q, takeDestination, hpin]
  have hrest : ((asked.goTo (.awaitingDestination { answering := true })).receive
      (some q.2)).Ends world Q qs := next.of_step hanswered rfl rfl
  refine Ends.checking (hrest.of_asking hstep rfl rfl ⟨rfl, by simp [q], ?_, hworld⟩) hcancelled
  simp [step, goTo, asked, post, hcancelled, Handoff.waitOrCancel, Handoff.wait]

theorem ends_resolve {destination : DeviceInfo} (hpin : destination.pin ≠ r.plan.source.pin)
    (hadmits : r.plan.AdmitsDestination destination) (hcancelled : r.cancelled = false)
    (hlistening : r.listening = true) (hworld : LooksLike world r.bus)
    (next : ∀ r', r.Tells [] (r.plan.warnings destination) r' → r'.files = r.files →
      r'.bus = r.bus →
      (r'.goTo (.checking (.connect (.destination destination) none))).Ends world Q qs) :
    (r.goTo (.checking .enterResolve)).Ends world Q
      ((if r.plan.destination = some destination then []
        else [(.destinationRequest r.plan.source, .destination destination)]) ++ qs) := by
  have hentered : ∀ r₁ : Run, r.Tells [] (r.plan.warnings destination) r₁ → r₁.files = r.files →
      r₁.bus = r.bus →
      (r₁.goTo (.checking (.enterRestore destination))).Ends world Q qs := fun r₁ h hf hb => by
    have hnext := next (r₁.enter .restore) ⟨h.1, h.2, h.3, h.4, h.5⟩ hf hb
    exact Ends.checking (hnext.of_step rfl rfl rfl) (h.cancelled.trans hcancelled)
  let resolving := r.enter .resolveDestination
  have hkeeps : r.Tells [] [] resolving := Keeps.tells ⟨rfl, rfl, rfl, rfl, rfl⟩
  refine Ends.checking ?_ hcancelled
  have hstep : (r.goTo (.working .enterResolve)).step
      = (resolving.goTo (.working .enterResolve)).resolve := rfl
  by_cases hnamed : r.plan.destination = some destination
  · rw [if_pos hnamed]
    have hwarnings : r.plan.warnings destination = [] := by simp [Plan.warnings, hnamed]
    refine (hentered resolving (hwarnings ▸ hkeeps) rfl rfl).of_step ?_ rfl rfl
    rw [hstep]
    simp only [resolve, goTo, enter, resolving, hnamed]
    exact if_neg hpin
  · rw [if_neg hnamed]
    have hunnamed := hadmits.resolve_left hnamed
    have hasked : ∀ r₁ : Run, r.Tells [] (r.plan.warnings destination) r₁ → r₁.files = r.files →
        r₁.bus = r.bus → (r₁.goTo (.checking .ask)).Ends world Q
          ((.destinationRequest r.plan.source, .destination destination) :: qs) :=
      fun r₁ h hf hb => by
        rw [← h.plan]
        exact ends_ask (h.plan ▸ hpin) (h.cancelled.trans hcancelled)
          (h.listening.trans hlistening) (hb ▸ hworld)
          (hentered _ ⟨h.1, h.2, h.3, h.4, h.5⟩ hf hb)
    cases hplan : r.plan.destination with
    | none =>
      have hwarnings : r.plan.warnings destination = [] := by simp [Plan.warnings, hplan]
      refine (hasked resolving (hwarnings ▸ hkeeps) rfl rfl).of_step ?_ rfl rfl
      rw [hstep]
      simp only [resolve, goTo, enter, resolving, hplan]
    | some info =>
      let text := s!"Cannot restore {r.plan.source.label} into itself, choose another device"
      have hwarnings : r.plan.warnings destination = [text] := by
        have hne : info ≠ destination := fun he => hnamed (he ▸ hplan)
        simp [Plan.warnings, hplan, hne, text]
      have hrest := hasked (resolving.post (.error text))
        (hwarnings ▸ ⟨rfl, (List.append_nil _).symm, rfl, rfl, rfl⟩) rfl rfl
      refine hrest.of_telling ?_ rfl rfl rfl
      rw [hstep]
      simp only [resolve, goTo, enter, resolving, hplan]
      exact if_pos (hunnamed info hplan)

/-! ## The whole run -/

theorem ends_ending (hQ : ∀ r' : Run, r.Keeps r' → r'.bus = r.bus →
      r'.report.outcome = .completed → r'.phase = .done → Q r') :
    (r.goTo (.ending (.ok ()))).Ends world Q [] := by
  let report : Report := { r.report with outcome := .completed }
  have hfinished : Ends world Q [] { r with
      stage := .finished, phases := .done :: r.phases, report
      posted := .status s!"Migration {report.summary}" 0 0 :: r.posted } :=
    ends_of_finished rfl (hQ _ ⟨rfl, rfl, rfl, rfl, rfl⟩ rfl rfl rfl)
  exact hfinished.of_telling rfl rfl rfl rfl

/-- How a migration ends whose destination has these databases given up and comes to be `d'`. -/
structure Concludes (plan : Plan) (destination : DeviceInfo) (s : Device) (m n : Nat)
    (es : List (String × Device.Error)) (d' : Device) (r : Run) : Prop where
  outcome : r.report.outcome = .completed
  phase : r.phase = .done
  skipped : r.report.skipped = es.map (·.1)
  errors : r.errors = (es.map fun p => givenUpText p.1 p.2).reverse ++ plan.warnings destination
  destination : r.bus.devices[n]? = some d'
  source : ∃ s', r.bus.devices[m]? = some s' ∧ s.Observed s'

/-- The worker comes to the end of the migration whenever the destination's writer, left alone with
the records of the source, gives up some databases and takes the others. -/
theorem ends_migrating {plan : Plan} {bus : Device.Bus} {files : Files} {destination : DeviceInfo}
    {s d d' : Device} {m n k : Nat} {es : List (String × Device.Error)} {w : Device.Writer}
    (hs : bus.Offers plan.source.pin m s) (hsReady : s.Ready 0)
    (hd : bus.Offers destination.pin n d) (hdSound : d.Sound k)
    (hpin : destination.pin ≠ plan.source.pin) (hmn : n ≠ m)
    (hmake : Archive.Makeable files plan.archivePath s.allRecords)
    (hsLock : ∀ lock, s.lock = some lock → Opens lock)
    (hdLock : ∀ lock, d.lock = some lock → Opens lock)
    (hadmits : plan.AdmitsDestination destination)
    (hgives : (Device.Writer.consumer Device.session).GivesUp
      ({ mode := plan.writeMode }, d.logged ⟨.catalog, true⟩)
      (s.allRecords.filter fun r => (d.databases.map (·.name)).contains r.database) es (w, d'))
    (hmild : ∀ p ∈ es, p.2.isFatal = false) :
    ({ plan, bus, files } : Run).Ends bus (Concludes plan destination s m n es d')
      (plan.questions bus destination s d) := by
  let r : Run := { plan, bus, files }
  let entered : Run := { r with phases := [.backup, .idle] }
  suffices h : (entered.goTo (.checking (.connect .source none))).Ends bus _ _ from
    Ends.checking (r := r) (h.of_step rfl rfl rfl) rfl
  -- the source is backed up
  refine ends_connect (r := entered) .source hs hsLock rfl rfl ⟨rfl, rfl⟩ fun r₁ id h₁ => ?_
  have hplan₁ : r₁.plan = plan := h₁.keeps.plan
  refine ends_backup plan.source.pin h₁.drives h₁.free hsReady ?_ h₁.keeps.cancelled
    fun r₂ s' hkeeps₂ harchived hs' hobserved hspares₂ => ?_
  · rw [h₁.files, hplan₁]
    exact hmake
  have hentered : r.Keeps entered := ⟨rfl, rfl, rfl, rfl, rfl⟩
  have hkeeps : r.Keeps r₂ := (hentered.trans h₁.keeps).trans hkeeps₂
  have hplan₂ : r₂.plan = plan := hkeeps.plan
  have hspares : bus.Spares r₂.bus plan.source.pin m := h₁.spares.trans hspares₂
  have hworld : LooksLike bus r₂.bus := ⟨hspares.plugged, hspares.failingProbes⟩
  -- the destination, which has not been touched so far, is settled upon and connected
  rw [← hplan₂]
  refine ends_resolve (hplan₂ ▸ hpin) (hplan₂ ▸ hadmits) hkeeps.cancelled hkeeps.listening hworld
    fun r₃ htells hfiles₃ hbus₃ => ?_
  have htells₃ : r.Tells [] (plan.warnings destination) r₃ := by
    simpa [hplan₂] using hkeeps.tells.trans htells
  have hoffers : r₃.bus.Offers destination.pin n d := hbus₃ ▸ hspares.offers hd hpin hmn
  have hquestion : passwordQuestion bus destination d
      = passwordQuestion r₃.bus destination d ++ [] := by
    rw [List.append_nil, passwordQuestion, passwordQuestion, hbus₃, hspares.live _ hpin]
  rw [hquestion]
  refine ends_connect (.destination destination) hoffers hdLock htells₃.cancelled
    htells₃.listening (hbus₃ ▸ hworld) fun r₄ id' h₄ => ?_
  -- the records are put into it, while the source stays as it was left
  have htells₄ : r.Tells [] (plan.warnings destination) r₄ := by
    simpa using htells₃.trans h₄.keeps.tells
  have hplan₄ : r₄.plan = plan := htells₄.plan
  refine ends_restoring destination.pin h₄.drives h₄.free hdSound ?_
    hsReady.proper.grouped_allRecords (hplan₄ ▸ hgives) hmild htells₄.cancelled
    fun r₅ hgiven hd' hspares₅ => ?_
  · rw [h₄.files, hfiles₃, hplan₄, ← hplan₁]
    exact harchived
  have htells₅ := htells₄.trans hgiven
  refine ends_ending fun r' hkeeps' hbus houtcome hphase => ⟨houtcome, hphase, ?_, ?_, ?_, s', ?_,
    hobserved⟩
  · rw [hkeeps'.skipped, htells₅.skipped]
    rfl
  · rw [hplan₂, hkeeps'.errors, htells₅.errors]
    exact List.append_nil _
  · rw [hbus]
    exact hd'
  · rw [hbus, hspares₅.devices m (Ne.symm hmn), h₄.spares.devices m (Ne.symm hmn), hbus₃]
    exact hs'

/-- The worker comes to the end of a migration into a device that is ready, and skips nothing. -/
theorem ends_migration {plan : Plan} {bus : Device.Bus} {files : Files} {destination : DeviceInfo}
    {s d : Device} {m n : Nat} (hs : bus.Offers plan.source.pin m s) (hsReady : s.Ready 0)
    (hd : bus.Offers destination.pin n d) (hdReady : d.Ready s.allRecords.length)
    (hpin : destination.pin ≠ plan.source.pin) (hmn : n ≠ m)
    (hmake : Archive.Makeable files plan.archivePath s.allRecords)
    (hsLock : ∀ lock, s.lock = some lock → Opens lock)
    (hdLock : ∀ lock, d.lock = some lock → Opens lock)
    (hadmits : plan.AdmitsDestination destination) :
    ({ plan, bus, files } : Run).Ends bus (fun r' => r'.report.outcome = .completed ∧
      r'.report.skipped = [] ∧ ∃ s' d', r'.bus.devices[m]? = some s' ∧
      r'.bus.devices[n]? = some d' ∧ Migrated plan.writeMode s d s' d')
      (plan.questions bus destination s d) := by
  have hof : ∀ name, s.allRecords.filter (·.database = name) = s.contents name :=
    hsReady.proper.filter_allRecords
  have hdistinct : ∀ name,
      ((s.allRecords.filter (·.database = name)).map (·.uniqueId)).Nodup := fun name => by
    rw [hof]
    exact hsReady.proper.uniqueIds_contents_nodup name
  obtain ⟨w, d', htakes, hrestored⟩ := Device.Writer.takes_restored plan.writeMode s.allRecords
    (((Device.observed_self d).logged ⟨.catalog, true⟩).ready hdReady) hdistinct
  obtain ⟨k, hends⟩ := ends_migrating hs hsReady hd hdReady.sound hpin hmn hmake hsLock hdLock
    hadmits htakes.givesUp nofun
  refine ⟨k, hends.imp fun r' h => ⟨h.outcome, h.skipped, ?_⟩⟩
  obtain ⟨s', hs', hobserved⟩ := h.source
  refine ⟨s', d', hs', h.destination, hobserved.databases, hrestored.names, fun name h => ?_,
    fun name hname h => ?_⟩
  · exact hrestored.untouched name ((hof name).trans h)
  · rw [← hof] at h ⊢
    exact hrestored.prescribed name hname h

end Run

/-! ## A user who follows a script -/

namespace Script

/-- What is told to the user leaves the answers to come alone. -/
theorem answers_of_told {u v : Script} (h : prompter.Told u v) :
    v.passwords = u.passwords ∧ v.choices = u.choices := by
  induction h with
  | nothing => exact ⟨rfl, rfl⟩
  | status _ _ _ _ ih => exact ih
  | error _ _ ih => exact ih

variable {limit : Nat} {world : Device.Bus} {qs : List Question} {u : Script}
  {passwords : List (Option String)} {choices : List (Option Choice)}

/-- The next password is the one in the script. -/
theorem gives_password {password : String} (info : DeviceInfo) (tries : Nat)
    (hu : u.passwords = some password :: passwords)
    (next : ∀ w : Script, w.passwords = passwords → w.choices = u.choices →
      prompter.Gives limit world qs w) :
    prompter.Gives limit world ((.passwordRequest info tries, .password password) :: qs) u := by
  intro v hv bus _
  obtain ⟨hpasswords, hchoices⟩ := answers_of_told hv
  refine ⟨_, ?_, next { v.note (.password info tries) with passwords := v.passwords.tail }
    (by rw [hpasswords, hu]; rfl) hchoices⟩
  simp [Prompter.handle, prompter, hpasswords, hu]

/-- The next destination is the one in the script. -/
theorem gives_destination {source destination : DeviceInfo}
    (hpin : destination.pin ≠ source.pin) (hprobes : world.failingProbes = 0)
    (hu : u.choices = some { destination } :: choices)
    (next : ∀ w : Script, w.passwords = u.passwords → w.choices = choices →
      prompter.Gives (limit + 1) world qs w) :
    prompter.Gives (limit + 1) world
      ((.destinationRequest source, .destination destination) :: qs) u := by
  intro v hv bus hbus
  obtain ⟨hpasswords, hchoices⟩ := answers_of_told hv
  have hprobe : bus.probe = (.ok (bus.plugged.map (·.1)), bus) := by
    rw [Device.Bus.probe, hbus.failingProbes, hprobes]
  let candidates := (bus.plugged.map (·.1)).filter (·.pin != source.pin)
  refine ⟨_, ?_, next { v.note (.choose source candidates) with choices := v.choices.tail }
    hpasswords (by rw [hchoices, hu]; rfl)⟩
  simp only [Prompter.handle, Prompter.chooseDestination, hprobe, prompter, hchoices, hu,
    List.headD_cons, List.foldl_nil, if_neg hpin, candidates]

end Script

/-- **End to end.**  Whatever the order in which worker and attendant move, a migration from one
device into another completes and skips nothing: the source's databases are as they were, and so is
every database of the destination that the source lacks or has no records for; every other comes to
hold what the write mode prescribes from the source's records of its name, in slot order. -/
theorem Dialogue.migrates {π : Type} {p : Prompter π} {limit : Nat} {plan : Plan}
    {bus : Device.Bus} {files : Files} {user : π} {destination : DeviceInfo} {s d : Device}
    {m n : Nat} (sourceOffered : bus.Offers plan.source.pin m s)
    (destinationOffered : bus.Offers destination.pin n d)
    (pins : destination.pin ≠ plan.source.pin) (devices : n ≠ m) (sourceReady : s.Ready 0)
    (destinationReady : d.Ready s.allRecords.length)
    (makeable : Archive.Makeable files plan.archivePath s.allRecords)
    (sourceLock : ∀ lock, s.lock = some lock → Opens lock)
    (destinationLock : ∀ lock, d.lock = some lock → Opens lock)
    (admits : plan.AdmitsDestination destination)
    (replies : p.Gives limit bus (plan.questions bus destination s d) user)
    {schedule : Nat → Move} (fair : Fair schedule) :
    ∃ N, ∀ k, N ≤ k →
      let start : Dialogue π := { run := { plan, bus, files }, user }
      let run := (start.moves p limit ((List.range k).map schedule)).run
      run.isOver = true ∧ run.report.outcome = .completed ∧ run.report.skipped = [] ∧
      ∃ s' d', run.bus.devices[m]? = some s' ∧ run.bus.devices[n]? = some d' ∧
        Migrated plan.writeMode s d s' d' := by
  obtain ⟨k, hends⟩ := Run.ends_migration sourceOffered sourceReady destinationOffered
    destinationReady pins devices makeable sourceLock destinationLock admits
  have hheads : Dialogue.Heads p limit bus _ k { run := { plan, bus, files }, user } :=
    .working _ ⟨rfl, Nat.zero_le _⟩ rfl replies hends
  obtain ⟨N, hN⟩ := hheads.completes fair
  refine ⟨N, fun k hk => ?_⟩
  obtain ⟨hfinished, hcompleted⟩ := hN k hk
  exact ⟨by rw [Run.isOver, hfinished], hcompleted⟩

/-- Two memos of a locked device are added to the memo of one that renumbers. -/
theorem Dialogue.migrates_memos :
    let memo (id : UniqueId) (content : List UInt8) : Record :=
      ⟨"Memos", id, 0, ⟨content.toArray⟩⟩
    let s : Device :=
      { databases := [{ name := "Memos", records := Slots.numbered 0 [memo 7 [1], memo 8 [2, 3]] }]
        lock := some ⟨"1234", 3⟩ }
    let d : Device :=
      { databases := [{ name := "Memos", records := Slots.numbered 0 [memo 7 [4]] }]
        renumbering := true }
    let plan : Plan :=
      { source := ⟨1, "Old"⟩, archivePath := ⟨"backup.tar"⟩, writeMode := .addAndOverwrite }
    let bus := (({} : Device.Bus).plugIn plan.source s).plugIn ⟨2, "New"⟩ d
    let user : Script :=
      { passwords := [some "1234"], choices := [some { destination := ⟨2, "New"⟩ }] }
    ∃ N, ∀ k, N ≤ k →
      let start : Dialogue Script := { run := { plan, bus, files := {} }, user }
      let run := (start.moves Script.prompter 1 ((List.range k).map byTurns)).run
      run.isOver = true ∧ run.report.outcome = .completed ∧ run.report.skipped = [] ∧
      ∃ s' d', run.bus.devices[0]? = some s' ∧ run.bus.devices[1]? = some d' ∧
        Migrated plan.writeMode s d s' d' := by
  intro memo s d plan bus user
  have hplain : Archive.Compression.ofPath plan.archivePath = .plain := by decide +kernel
  have hcomponents : plan.archivePath.components = ["backup.tar"] := by decide +kernel
  have habsolute : plan.archivePath.isAbsolute = false := by decide +kernel
  have hslash : plan.archivePath.endsWithSlash = false := by decide +kernel
  have hmake : Archive.Makeable {} plan.archivePath s.allRecords := by
    refine ⟨⟨{ path := plan.archivePath, location := ["backup.tar"], compression := .plain },
      ({} : Files).set ["backup.tar"] (.file .empty), ?_, by decide +kernel⟩, fun bytes => ?_,
      by decide, by decide⟩
    · rw [Archive.Writer.create, hplain]
      simp [Archive.Writer.createWith, Files.makeParents, Files.makeFrom, Files.create,
        Files.resolve, Files.resolveFrom, Files.at?, Files.start, hcomponents, habsolute, hslash,
        plan]
    · rw [hplain]
      rfl
  have hsource : bus.Offers plan.source.pin 0 s := ⟨rfl, Or.inl ⟨rfl, rfl⟩⟩
  have hdestination : bus.Offers (DeviceInfo.mk 2 "New").pin 1 d := ⟨rfl, Or.inl ⟨rfl, rfl⟩⟩
  have hopens : ∀ lock, s.lock = some lock → Opens lock := by
    rintro _ ⟨⟩
    exact ⟨by decide, by decide⟩
  have hreplies : Script.prompter.Gives 1 bus (plan.questions bus ⟨2, "New"⟩ s d) user :=
    Script.gives_password _ _ rfl fun w _ hw =>
      Script.gives_destination (by decide) rfl hw fun _ _ _ => trivial
  exact migrates hsource hdestination (by decide) (by decide) ⟨by decide, by decide, by decide⟩
    ⟨by decide, by decide, by decide⟩ hmake hopens (by simp [d]) (Or.inr (by simp [plan])) hreplies
    fair_byTurns

end Palmtop.Migration
