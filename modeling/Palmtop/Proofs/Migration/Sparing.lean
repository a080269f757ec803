import Palmtop.Proofs.Migration.Moves

/-! # The source is not written

Whatever destination is planned or chosen, a migration restores into a device with another PIN than
the source (`Stage.Spares`).  On an orderly bus this is another device, and so the device that carries
the source's PIN is not given a single command that changes its records (`Run.source_spared`).  This
holds in the course of any turns: whatever is answered and refused, whenever the migration is
cancelled, and whatever is plugged in meanwhile.
-/
namespace Palmtop.Migration

open Device (Bus ConnectionId)

/-! ## Where the worker is heading -/

/-- The connection was made under this PIN. -/
def MadeFor (bus : Bus) (id : ConnectionId) (pin : Pin) : Prop :=
  ∃ c, bus.connections[id]? = some c ∧ c.info.pin = pin

theorem MadeFor.of_hears {news : Nat → List Device.Exchange} {bus bus' : Bus} {id : ConnectionId}
    {pin : Pin} (h : MadeFor bus id pin) (hhears : bus.Hears news bus') : MadeFor bus' id pin := by
  obtain ⟨c, hc, hpin⟩ := h
  obtain ⟨c', hc', hinfo, -⟩ := hhears.connections id c hc
  exact ⟨c', hc', hinfo ▸ hpin⟩

/-- The side is the source, or a device with another PIN. -/
def Side.Spares (source : Pin) : Side → Prop
  | .source => True
  | .destination info => info.pin ≠ source

/-- The destination has another PIN than the source, and it is what the worker is connected to. -/
structure Restore.Spares (source : Pin) (bus : Bus) (x : Restore) : Prop where
  other : x.destination.pin ≠ source
  made : MadeFor bus x.connection x.destination.pin

/-- No such task takes the source for the destination. -/
def Task.Spares (source : Pin) (bus : Bus) : Task → Prop
  | .enterRestore destination => destination.pin ≠ source
  | .connect side _ => side.Spares source
  | .restore x => x.Spares source bus
  | .enterBackup | .enterResolve | .ask | .backUp _ => True

/-- Wherever the worker stands, it does not take the source for the destination. -/
def Stage.Spares (source : Pin) (bus : Bus) : Stage → Prop
  | .checking task | .working task => task.Spares source bus
  | .awaitingPassword side _ => side.Spares source
  | .taking (.destination info) id => info.pin ≠ source ∧ MadeFor bus id info.pin
  | .taking .source _ | .awaitingDestination _ | .closing _ _ | .ending _ | .finished => True

namespace Run

variable {r r' : Run} {n : Nat}

/-- The PIN is looked at on every way to a restore. -/
theorem Moves.spares {sessions : Bus.Sessions} {news : Nat → List Device.Exchange}
    (h : r.Moves sessions r') (hhears : r.bus.Hears news r'.bus) (ho : r.bus.Orderly)
    (hs : r.stage.Spares r.plan.source.pin r.bus) :
    r'.stage.Spares r.plan.source.pin r'.bus := by
  cases h with
  | rests | drops | dropsBackup | dropsRestore | entersBackup | entersResolve | connectsNot | asks
  | rejects | abandons | opensBackup | opensNoBackup | reachesEnd | passes | archives | archivesNot
  | closes | breaksOff | opensNoRestore | restoresAll | putsNot | readsNot | concludes =>
    first | exact hs | trivial
  | proceeds stage | locked stage | unlocks stage | entersRestore stage =>
    rw [stage] at hs
    exact hs
  | settles _ other | chooses _ other => exact other
  | @connects side _ _ _ stage connect =>
    rw [stage] at hs
    cases side with
    | source => trivial
    | destination info => exact ⟨hs, ho.info_of_connect connect⟩
  | opensRestore stage =>
    rw [stage] at hs
    exact ⟨hs.1, hs.2.of_hears hhears⟩
  | skips stage | puts stage | givesUp stage =>
    rw [stage] at hs
    obtain ⟨hother, hmade⟩ := hs
    exact ⟨hother, hmade.of_hears hhears⟩

theorem Stirs.spares {source : Pin} (h : r.Stirs r') (hs : r.stage.Spares source r.bus) :
    r'.stage.Spares source r'.bus := by
  have htask {task : Task} (ht : task.Spares source r.bus) : task.Spares source r'.bus := by
    cases task with
    | restore x =>
      obtain ⟨hother, hmade⟩ := ht
      exact ⟨hother, hmade.of_hears h.bus⟩
    | _ => exact ht
  have hstage := h.stage
  generalize r.stage = s, r'.stage = s' at hs hstage
  cases hstage with
  | self =>
    cases s with
    | checking task => exact htask hs
    | working task => exact htask hs
    | taking side id =>
      cases side with
      | source => trivial
      | destination info => exact ⟨hs.1, hs.2.of_hears h.bus⟩
    | _ => exact hs
  | password => exact hs
  | destination => trivial

/-- The bus is orderly, and the worker does not take the source for the destination. -/
structure Guarded (r : Run) : Prop where
  orderly : r.bus.Orderly
  stage : r.stage.Spares r.plan.source.pin r.bus

theorem Guarded.turn (h : r.Guarded) (t : Turn) : (r.turn t).Guarded := by
  have hplan := r.plan_turn t
  rcases r.turn_cases t with ⟨refusals, -, hmoves⟩ | ⟨-, hstirs⟩
  · obtain ⟨news, hhears⟩ := hmoves.hears
    exact ⟨hhears.orderly h.orderly, hplan ▸ hmoves.spares hhears h.orderly h.stage⟩
  · exact ⟨hstirs.bus.orderly h.orderly, hplan ▸ hstirs.spares h.stage⟩

/-- What is restored into does not carry the source's PIN. -/
theorem Guarded.restores (h : r.Guarded) {x : Restore} (hx : r.stage.restore? = some x) :
    x.destination.pin ≠ r.plan.source.pin ∧ ∃ n, r.bus.numberAt? x.connection = some n ∧
      r.bus.Carries n x.destination.pin ∧ ¬ r.bus.Carries n r.plan.source.pin := by
  obtain ⟨hother, c, hc, hpin⟩ : x.Spares r.plan.source.pin r.bus := by
    have hs := h.stage
    generalize r.stage = s at hs hx
    unfold Stage.restore? at hx
    split at hx
    · exact Option.some.inj hx ▸ hs
    · exact Option.some.inj hx ▸ hs
    · cases hx
  have hcarries : r.bus.Carries c.device x.destination.pin := Or.inr ⟨_, c, hc, rfl, hpin⟩
  exact ⟨hother, c.device, by rw [Bus.numberAt?, hc]; rfl, hcarries, fun hsource =>
    hother (h.orderly.distinct _ _ _ hcarries hsource)⟩

/-! ## A device that carries the source's PIN -/

/-- Device number `n` goes by the source's PIN alone. -/
structure Sparing (n : Nat) (r : Run) : Prop extends Guarded r where
  device : ∃ d, r.bus.devices[n]? = some d
  source : ∀ pin, r.bus.Carries n pin → pin = r.plan.source.pin

theorem Guarded.sparing (h : r.Guarded) (hn : r.bus.Carries n r.plan.source.pin) : r.Sparing n :=
  ⟨h, h.orderly.known n _ hn, fun pin hpin => h.orderly.distinct n pin _ hpin hn⟩

/-- At any turn, the device hears nothing that changes its records. -/
theorem Sparing.hears (h : r.Sparing n) (t : Turn) :
    ∃ news, r.bus.Hears news (r.turn t).bus ∧ ∀ e ∈ news n, e.command.isMutation = false := by
  rcases r.turn_cases t with ⟨refusals, -, hmoves⟩ | ⟨-, hstirs⟩
  · rcases hmoves.heard with ⟨⟨⟨news, hhears, hquiet⟩, -⟩, -⟩ | ⟨x, said, hx, hhears, -⟩
    · exact ⟨news, hhears, hquiet n⟩
    · obtain ⟨hother, m, hm, hpin, -⟩ := h.restores (x := x) (by rw [hx]; rfl)
      have hne : r.bus.numberAt? x.connection ≠ some n := fun hn =>
        hother (h.source _ (Option.some.inj (hm.symm.trans hn) ▸ hpin))
      refine ⟨_, hhears, ?_⟩
      rw [Bus.newsAt, if_neg hne]
      exact List.forall_mem_nil _
  · exact ⟨_, hstirs.bus, List.forall_mem_nil _⟩

theorem Sparing.turn (h : r.Sparing n) (t : Turn) : (r.turn t).Sparing n := by
  obtain ⟨news, hhears, -⟩ := h.hears t
  obtain ⟨d, hd⟩ := h.device
  obtain ⟨d', hd', -⟩ := hhears.devices n d hd
  refine ⟨h.toGuarded.turn t, ⟨d', hd'⟩, fun pin hpin => ?_⟩
  rw [r.plan_turn t]
  exact h.source pin (hhears.carries n d hd pin hpin)

/-- In the course of these turns, device number `n` is told nothing that changes its records, and it
holds afterwards what it held. -/
structure LeavesAlone (n : Nat) (r : Run) (turns : List Turn) : Prop where
  told : ∀ e ∈ r.told n turns, e.command.isMutation = false
  holdings : ∃ d d', r.bus.devices[n]? = some d ∧ (r.after turns).bus.devices[n]? = some d' ∧
    d'.holdings = d.holdings

theorem leavesAlone_nil {d : Device} (hd : r.bus.devices[n]? = some d) : r.LeavesAlone n [] :=
  ⟨List.forall_mem_nil _, d, d, hd, hd, rfl⟩

/-- A device that hears no change at this turn and is left alone from then on is left alone. -/
theorem LeavesAlone.cons {t : Turn} {turns : List Turn} {news : Nat → List Device.Exchange}
    {d : Device} (h : (r.turn t).LeavesAlone n turns) (hears : r.bus.Hears news (r.turn t).bus)
    (quiet : ∀ e ∈ news n, e.command.isMutation = false) (hd : r.bus.devices[n]? = some d) :
    r.LeavesAlone n (t :: turns) := by
  obtain ⟨hrest, d', d'', hd', hd'', hholdings⟩ := h
  obtain ⟨x, hx, hheard⟩ := hears.devices n d hd
  obtain rfl : x = d' := Option.some.inj (hx.symm.trans hd')
  refine ⟨fun e he => ?_, d, d'', hd, hd'', hholdings.trans (hheard.holdings_eq quiet)⟩
  rcases List.mem_append.mp he with he | he
  · exact hrest e he
  · exact quiet e (mem_news_of_mem_told hears he)

theorem Sparing.leavesAlone (h : r.Sparing n) (turns : List Turn) : r.LeavesAlone n turns := by
  induction turns generalizing r with
  | nil =>
    obtain ⟨d, hd⟩ := h.device
    exact leavesAlone_nil hd
  | cons t turns ih =>
    obtain ⟨news, hhears, hquiet⟩ := h.hears t
    obtain ⟨d, hd⟩ := h.device
    exact (ih (h.turn t)).cons hhears hquiet hd

/-- **The source is not written.**  On a bus that keeps distinct devices under distinct PINs, and in
the course of any turns, a device is left alone from the moment on at which it carries the source's
PIN, and every restore is into a device that has another PIN and does not carry the source's. -/
theorem source_spared (plan : Plan) {bus : Bus} (files : Files) (orderly : bus.Orderly)
    (turns later : List Turn) :
    let r := ({ plan, bus, files } : Run).after turns
    (∀ n, r.bus.Carries n plan.source.pin → r.LeavesAlone n later) ∧
    ∀ x, r.stage.restore? = some x → x.destination.pin ≠ plan.source.pin ∧
      ∃ n, r.bus.numberAt? x.connection = some n ∧ r.bus.Carries n x.destination.pin ∧
        ¬ r.bus.Carries n plan.source.pin := by
  intro r
  have hstart : Guarded { plan, bus, files } := ⟨orderly, trivial⟩
  have hguarded : r.Guarded := after_of_turn (fun _ t h => h.turn t) hstart turns
  have hplan : r.plan = plan := plan_after _ turns
  refine ⟨fun n hn => ?_, fun x hx => ?_⟩
  · rw [← hplan] at hn
    exact (hguarded.sparing hn).leavesAlone later
  · rw [← hplan]
    exact hguarded.restores hx

/-- The plan names the source for its destination, and so does the user when asked the first time.
The memos of the source are left alone, and so they are when the restore is under way and the other
device refuses a record. -/
theorem source_spared_asking :
    let memo (id : UniqueId) (content : List UInt8) : Record := ⟨"Memos", id, 0, ⟨content.toArray⟩⟩
    let s : Device :=
      { databases := [{ name := "Memos", records := Slots.numbered 0 [memo 7 [1], memo 8 [2, 3]] }] }
    let d : Device :=
      { databases := [{ name := "Memos", records := Slots.numbered 0 [memo 7 [4]] }] }
    let plan : Plan :=
      { source := ⟨1, "Old"⟩, destination := some ⟨1, "Old"⟩, archivePath := ⟨"backup.tar"⟩ }
    let bus := (({} : Bus).plugIn plan.source s).plugIn ⟨2, "New"⟩ d
    let start : Run := { plan, bus, files := {} }
    let work : Turn := .work fun _ _ _ => none
    let refusing : Turn := .work fun _ c _ =>
      match c with
      | .addRecord _ _ => some (.rejected "full")
      | _ => none
    let asked := List.replicate 17 work ++ [.reply (.destination plan.source)] ++
      List.replicate 3 work ++ [.reply (.destination ⟨2, "New"⟩)] ++ List.replicate 6 work
    let restored := refusing :: List.replicate 8 work
    bus.Orderly ∧ start.LeavesAlone 0 (asked ++ restored) ∧
    ∀ x, (start.after asked).stage.restore? = some x → x.destination.pin ≠ plan.source.pin ∧
      ∃ n, (start.after asked).bus.numberAt? x.connection = some n ∧
        (start.after asked).bus.Carries n x.destination.pin ∧
        ¬ (start.after asked).bus.Carries n plan.source.pin := by
  intro memo s d plan bus start work refusing asked restored
  have orderly : bus.Orderly := (Device.Bus.orderly_empty.plugIn _ _).plugIn _ _
  refine ⟨orderly, (source_spared plan {} orderly [] (asked ++ restored)).1 0 ?_,
    (source_spared plan {} orderly asked restored).2⟩
  exact Or.inl ⟨(plan.source, 0), by decide, rfl, rfl⟩

end Run

end Palmtop.Migration
