import Mathlib.Data.List.Nodup
import Palmtop.Replica.Sharing

/-! # Each database is loaded once

The device is read between two looks at the replicas: the one that found nothing and was made with
the loading lock in hand, and the one anybody makes after the replica was kept.  Between them only
the caller that has the lock can add a replica.  So the invariant (`Sharing.Sound`) says of each
caller what it has seen, as far as only it could have changed that since, and of the log that every
line fits those before it (`Told`).

* `Sharing.Moves` lists what a turn can do, one constructor per section.
* `Sound.moves` is the step, `Sound.run` the run.
* `loadsOnce` reads the guarantees off the invariant.

No assumption is made on the session: a load fails whenever the device refuses one of its commands.
-/
namespace Palmtop.Replica

/-! ## What a registry keeps -/

namespace Registry

variable {r : Registry} {name : String}

theorem isSome_get? : (r.get? name).isSome ↔ name ∈ r.loaded := by
  simp [get?, loaded, List.findIdx?_isSome]

theorem get?_eq_none : r.get? name = none ↔ name ∉ r.loaded := by
  rw [← isSome_get?, Option.not_isSome_iff_eq_none]

/-- The number of a database is that of a replica of it. -/
theorem getElem?_of_get? {id : ReplicaId} (h : r.get? name = some id) :
    ∃ replica, r.replicas[id]? = some replica ∧ replica.name = name := by
  obtain ⟨hid, hname, -⟩ := List.findIdx?_eq_some_iff_getElem.mp h
  exact ⟨r.replicas[id], List.getElem?_eq_getElem hid, eq_of_beq hname⟩

@[simp] theorem loaded_insert (replica : Replica) :
    (r.insert replica).loaded = r.loaded ++ [replica.name] := by
  simp [loaded, insert]

@[simp] theorem lists_insert (replica : Replica) : (r.insert replica).lists name = r.lists name :=
  rfl

/-- What was loaded keeps its number. -/
theorem get?_insert_of_ne {replica : Replica} (h : replica.name ≠ name) :
    (r.insert replica).get? name = r.get? name := by
  simp [get?, insert, List.findIdx?_append, h]

theorem get?_insert_self {replica : Replica} (h : r.get? replica.name = none) :
    (r.insert replica).get? replica.name = some r.replicas.length := by
  rw [get?] at h
  simp [get?, insert, List.findIdx?_append, h]

end Registry

/-- A replica is called what it was loaded as. -/
theorem name_load {σ : Type} {session : Device.Session σ} {name : String} {s after : σ}
    {replica : Replica} (h : Replica.load session name s = (.ok replica, after)) :
    replica.name = name := by
  unfold Replica.load at h
  split at h
  · cases h
  · split at h
    · cases h
    · split at h
      · cases h
      · cases h; rfl

/-! ## Logs -/

/-- Whether a line fits the log before it. -/
def Happening.Fits (earlier : List Happening) : Happening → Prop
  | .started name | .read name _ => .read name true ∉ earlier
  | .kept name _ => .read name true ∈ earlier ∧ ∀ id, .kept name id ∉ earlier
  | .answered (.load name) (.ok id) => .kept name id ∈ earlier
  | .answered (.load _) (.error _) => True
  | .answered (.get name) answer => ∀ id, answer = some id ↔ .kept name id ∈ earlier
  | .answered .loaded names => names.Nodup ∧ ∀ name, name ∈ names ↔ ∃ id, .kept name id ∈ earlier

/-- Every line of the log fits those before it. -/
def Told : List Happening → Prop
  | [] => True
  | h :: earlier => h.Fits earlier ∧ Told earlier

namespace Told

variable {log later earlier : List Happening} {name : String} {i j : ReplicaId}

theorem fits {h : Happening} (ht : Told log) (hlog : log = later ++ h :: earlier) :
    h.Fits earlier := by
  induction later generalizing log with
  | nil => subst hlog; exact ht.1
  | cons _ _ ih => subst hlog; exact ih ht.2 rfl

/-- A line of a log with the lines before it. -/
theorem fits_of_mem {h : Happening} (ht : Told log) (hmem : h ∈ log) :
    ∃ earlier, (∀ x ∈ earlier, x ∈ log) ∧ h.Fits earlier := by
  obtain ⟨later, earlier, hlog⟩ := List.append_of_mem hmem
  exact ⟨earlier, by simp +contextual [hlog], ht.fits hlog⟩

/-- A database is kept under one number. -/
theorem kept_unique (ht : Told log) (hi : .kept name i ∈ log) (hj : .kept name j ∈ log) :
    i = j := by
  induction log with
  | nil => cases hi
  | cons h log ih =>
    rcases List.mem_cons.mp hi with rfl | hi' <;> rcases List.mem_cons.mp hj with hj' | hj'
    · cases hj'; rfl
    · exact absurd hj' (ht.1.2 j)
    · subst hj'; exact absurd hi' (ht.1.2 i)
    · exact ih ht.2 hi' hj'

/-- An answer is the number under which the database was kept. -/
theorem kept_of_answered (ht : Told log) (h : .answered (.load name) (.ok i) ∈ log) :
    .kept name i ∈ log := by
  obtain ⟨earlier, hsub, hfits⟩ := ht.fits_of_mem h
  exact hsub _ hfits

theorem read_of_kept (ht : Told log) (h : .kept name i ∈ log) : .read name true ∈ log := by
  obtain ⟨earlier, hsub, hfits⟩ := ht.fits_of_mem h
  exact hsub _ hfits.1

/-- The lines after a line of a log, each with those before it. -/
theorem fits_later {h : Happening} (ht : Told (later ++ earlier)) (hmem : h ∈ later) :
    ∃ before, h.Fits (before ++ earlier) := by
  obtain ⟨after, before, rfl⟩ := List.append_of_mem hmem
  rw [List.append_assoc, List.cons_append] at ht
  exact ⟨before, ht.fits rfl⟩

/-- After a database was read, no load of it begins or ends. -/
theorem once (ht : Told (later ++ .read name true :: earlier)) :
    .started name ∉ later ∧ ∀ succeeded, .read name succeeded ∉ later := by
  constructor
  · intro hmem
    obtain ⟨before, hfits⟩ := ht.fits_later hmem
    exact hfits (by simp)
  · intro succeeded hmem
    obtain ⟨before, hfits⟩ := ht.fits_later hmem
    exact hfits (by simp)

/-- After a load was answered, every look finds what it answered. -/
theorem found {answer : Option ReplicaId}
    (ht : Told (later ++ .answered (.load name) (.ok i) :: earlier))
    (hmem : .answered (.get name) answer ∈ later) : answer = some i := by
  have hkept : .kept name i ∈ earlier := ht.fits rfl
  obtain ⟨before, hfits⟩ := ht.fits_later hmem
  exact (hfits i).mpr (by simp [hkept])

end Told

/-- Whether a line of a log is about a listed database, or refuses one that is not. -/
def Happening.Listed (r : Registry) : Happening → Prop
  | .started name | .read name _ | .kept name _ => r.lists name
  | .answered (.load name) answer => r.lists name ∨ answer = .error (.unknownDatabase name)
  | .answered _ _ => True

/-! ## What a caller knows -/

/-- Whether nothing need be known of a caller there. -/
def Stage.isFree : Stage → Bool
  | .idle | .asking _ | .served _ _ => true
  | _ => false

/-- Whether a caller there has the loading lock. -/
def Stage.holds : Stage → Bool
  | .locked _ | .reading _ | .keeping _ _ | .leaving _ _ => true
  | _ => false

namespace Sharing

variable {σ : Type} {session : Device.Session σ} {w after : Sharing σ} {i j : CallerId}
  {name : String} {stage : Stage} {c : Caller}

/-- What a caller that stands somewhere has seen and still holds. -/
def Knows (w : Sharing σ) (i : CallerId) : Stage → Prop
  | .idle | .asking _ | .served _ _ => True
  | .queued name => w.registry.lists name
  | .locked name => w.lock = some i ∧ w.registry.lists name
  | .reading name => w.lock = some i ∧ w.registry.lists name ∧ w.registry.get? name = none
  | .keeping name replica =>
    w.lock = some i ∧ w.registry.lists name ∧ w.registry.get? name = none ∧
      replica.name = name ∧ .read name true ∈ w.log
  | .leaving name answer =>
    w.lock = some i ∧ w.registry.lists name ∧
      ∀ id, answer = .ok id → w.registry.get? name = some id

theorem knows_of_isFree (h : stage.isFree) : w.Knows i stage := by
  cases stage with
  | idle | asking | served => trivial
  | queued | locked | reading | keeping | leaving => cases h

theorem Knows.lock_eq (h : w.Knows i stage) (hh : stage.holds) : w.lock = some i := by
  cases stage with
  | idle | asking | served | queued => cases hh
  | locked | reading | keeping | leaving => exact h.1

/-- More in the log takes nothing away. -/
theorem Knows.mono (h : w.Knows i stage) (hreg : after.registry = w.registry)
    (hlock : after.lock = w.lock) (hlog : ∀ x ∈ w.log, x ∈ after.log) : after.Knows i stage := by
  cases stage with
  | keeping name replica =>
    obtain ⟨h₁, h₂, h₃, h₄, h₅⟩ := h
    exact ⟨hlock ▸ h₁, hreg ▸ h₂, hreg ▸ h₃, h₄, hlog _ h₅⟩
  | idle | asking | served => trivial
  | queued | locked | reading | leaving => simpa only [Knows, hreg, hlock] using h

/-- Whoever does not have the lock knows nothing that can change. -/
theorem Knows.of_lock_ne (h : w.Knows i stage) (hlock : w.lock ≠ some i)
    (hlist : ∀ name, after.registry.lists name = w.registry.lists name) :
    after.Knows i stage := by
  cases stage with
  | idle | asking | served => trivial
  | queued name => simpa only [Knows, hlist] using h
  | locked | reading | keeping | leaving => exact absurd h.1 hlock

/-! ## The invariant -/

/-- Somebody is about to keep the replica of a database. -/
def Keeps (w : Sharing σ) (name : String) : Prop :=
  ∃ (i : CallerId) (c : Caller) (replica : Replica),
    w.callers[i]? = some c ∧ c.stage = .keeping name replica

/-- Every caller knows what it should, the replicas kept are those of the log, and the log is told
in order. -/
structure Sound (w : Sharing σ) : Prop where
  knows : ∀ i c, w.callers[i]? = some c → w.Knows i c.stage
  nodup : w.registry.loaded.Nodup
  kept : ∀ name id, .kept name id ∈ w.log ↔ w.registry.get? name = some id
  /-- What was read is kept, or about to be. -/
  read : ∀ name, .read name true ∈ w.log →
    (w.registry.get? name).isSome ∨ w.Keeps name
  listed : ∀ h ∈ w.log, h.Listed w.registry
  told : Told w.log

theorem sound_start (catalog : List CatalogEntry) (device : σ) :
    (start { catalog } device []).Sound where
  knows i c h := by simp [start] at h
  nodup := by simp [start, Registry.loaded]
  kept := by simp [start, Registry.get?]
  read := by simp [start]
  listed := by simp [start]
  told := trivial

theorem Sound.knows_at (h : w.Sound) (hc : w.callers[i]? = some c) (hstage : c.stage = stage) :
    w.Knows i stage :=
  hstage ▸ h.knows i c hc

/-- A caller that has the lock and not the replica of a missing database can tell that nobody read
it. -/
theorem Sound.not_read (h : w.Sound) (hc : w.callers[i]? = some c) (hh : c.stage.holds)
    (hkeep : ∀ replica, c.stage ≠ .keeping name replica) (hnone : w.registry.get? name = none) :
    .read name true ∉ w.log := by
  intro hmem
  rcases h.read name hmem with hsome | ⟨j, d, replica, hd, hdstage⟩
  · simp [hnone] at hsome
  · have hi := (h.knows i c hc).lock_eq hh
    have hj := (h.knows j d hd).lock_eq (by rw [hdstage]; rfl)
    obtain rfl : i = j := by simpa [hi] using hj
    obtain rfl : c = d := by simpa [hc] using hd
    exact hkeep replica hdstage

/-! ## What a turn does -/

/-- The state with caller `i` replaced. -/
def put (w : Sharing σ) (i : CallerId) (c : Caller) : Sharing σ :=
  { w with callers := w.callers.set i c }

/-- Whether an answer is what a look at the registry gives. -/
def Says (r : Registry) : (call : Call) → call.Answer → Prop
  | .load name, .ok id => r.get? name = some id
  | .load name, .error e => r.lists name = false ∧ e = .unknownDatabase name
  | .get name, answer => answer = r.get? name
  | .loaded, names => names = r.loaded

/-- What one turn can do, with what holds when it begins. -/
inductive Moves (session : Device.Session σ) (w : Sharing σ) : Sharing σ → Prop
  | stay : Moves session w w
  | arrive (c : Caller) (free : c.stage.isFree) : Moves session w (w.arrive c)
  | disturb (device : σ) : Moves session w { w with device }
  /-- A caller gives up what it was to load, or goes on to its next call. -/
  | turn (i : CallerId) (c d : Caller) (here : w.callers[i]? = some c)
      (same : d.stage = c.stage ∨ c.stage.isFree ∧ d.stage.isFree) : Moves session w (w.put i d)
  | serve (i : CallerId) (c : Caller) (call : Call) (answer : call.Answer)
      (here : w.callers[i]? = some c) (stage : c.stage = .asking call)
      (said : Says w.registry call answer) : Moves session w (w.serve i call answer)
  | queue (i : CallerId) (c : Caller) (name : String) (here : w.callers[i]? = some c)
      (stage : c.stage = .asking (.load name)) (lists : w.registry.lists name) :
      Moves session w (w.goTo i (.queued name))
  | lock (i : CallerId) (c : Caller) (name : String) (here : w.callers[i]? = some c)
      (stage : c.stage = .queued name) (free : w.lock = none) :
      Moves session w { w.goTo i (.locked name) with lock := some i }
  | find (i : CallerId) (c : Caller) (name : String) (id : ReplicaId)
      (here : w.callers[i]? = some c) (stage : c.stage = .locked name)
      (found : w.registry.get? name = some id) :
      Moves session w (w.goTo i (.leaving name (.ok id)))
  | miss (i : CallerId) (c : Caller) (name : String) (here : w.callers[i]? = some c)
      (stage : c.stage = .locked name) (missing : w.registry.get? name = none) :
      Moves session w ((w.goTo i (.reading name)).note (.started name))
  | fail (i : CallerId) (c : Caller) (name : String) (e : Error) (device : σ)
      (here : w.callers[i]? = some c) (stage : c.stage = .reading name)
      (load : Replica.load session name w.device = (.error e, device)) :
      Moves session w
        (({ w with device }.goTo i (.leaving name (.error e))).note (.read name false))
  | read (i : CallerId) (c : Caller) (name : String) (replica : Replica) (device : σ)
      (here : w.callers[i]? = some c) (stage : c.stage = .reading name)
      (load : Replica.load session name w.device = (.ok replica, device)) :
      Moves session w
        (({ w with device }.goTo i (.keeping name replica)).note (.read name true))
  | keep (i : CallerId) (c : Caller) (name : String) (replica : Replica)
      (here : w.callers[i]? = some c) (stage : c.stage = .keeping name replica) :
      Moves session w (w.keep i name replica)
  | leave (i : CallerId) (c : Caller) (name : String) (answer : Except Error ReplicaId)
      (here : w.callers[i]? = some c) (stage : c.stage = .leaving name answer) :
      Moves session w ({ w with lock := none }.serve i (.load name) answer)

theorem change_eq_put {f : Caller → Caller} (h : w.callers[i]? = some c) :
    w.change i f = w.put i (f c) := by
  simp only [change, put, List.modify_eq_set_getElem?, h, Option.map_eq_map, Option.map_some,
    Option.getD_some]

theorem change_of_none {f : Caller → Caller} (h : w.callers[i]? = none) : w.change i f = w := by
  simp only [change, List.modify_eq_set_getElem?, h, Option.map_eq_map, Option.map_none,
    Option.getD_none]

theorem isFree_next (h : c.stage.isFree) : c.next.stage.isFree := by
  unfold Caller.next
  split
  · exact h
  · rfl

/-- Every section is one of the moves. -/
theorem moves_stepFrom (h : w.callers[i]? = some c) :
    Moves session w (w.stepFrom session i c.stage) := by
  have onward (hfree : c.stage.isFree) : Moves session w (w.change i Caller.next) := by
    rw [change_eq_put h]
    exact .turn i c _ h (.inr ⟨hfree, isFree_next hfree⟩)
  cases hstage : c.stage with
  | idle => exact onward (by rw [hstage]; rfl)
  | asking call =>
    cases call with
    | load name =>
      simp only [stepFrom, look]
      split
      · next id hget => exact .serve i c (.load name) (.ok id) h hstage hget
      · split
        · next hlist => exact .queue i c name h hstage hlist
        · next hlist =>
          exact .serve i c (.load name) (.error (.unknownDatabase name)) h hstage
            ⟨by simpa using hlist, rfl⟩
    | get name => exact .serve i c (.get name) _ h hstage rfl
    | loaded => exact .serve i c .loaded _ h hstage rfl
  | queued name =>
    simp only [stepFrom]
    split
    · exact .stay
    · next hlock => exact .lock i c name h hstage (by simpa using hlock)
  | locked name =>
    simp only [stepFrom, lookAgain]
    split
    · next id hget => exact .find i c name id h hstage hget
    · next hget => exact .miss i c name h hstage hget
  | reading name =>
    simp only [stepFrom, Sharing.read]
    split
    · next e device hload => exact .fail i c name e device h hstage hload
    · next replica device hload => exact .read i c name replica device h hstage hload
  | keeping name replica => exact .keep i c name replica h hstage
  | leaving name answer => exact .leave i c name answer h hstage
  | served call answer =>
    cases call with
    | load name =>
      simp only [stepFrom]
      split
      · exact onward (by rw [hstage]; rfl)
      · exact .stay
    | get | loaded => exact .stay

theorem moves_turn (t : Turn σ) : Moves session w (w.turn session t) := by
  cases t with
  | call call => exact .arrive _ rfl
  | warmUp names => exact .arrive _ rfl
  | cancel i =>
    simp only [turn]
    cases h : w.callers[i]? with
    | none => rw [change_of_none h]; exact .stay
    | some c => rw [change_eq_put h]; exact .turn i c _ h (.inl rfl)
  | go i =>
    simp only [turn, step]
    split
    · next h => exact moves_stepFrom h
    · exact .stay
  | disturb device => exact .disturb device

/-! ## One turn keeps the invariant -/

@[simp] theorem registry_goTo : (w.goTo i stage).registry = w.registry := rfl
@[simp] theorem lock_goTo : (w.goTo i stage).lock = w.lock := rfl
@[simp] theorem log_goTo : (w.goTo i stage).log = w.log := rfl

theorem callers_goTo (h : w.callers[i]? = some c) :
    (w.goTo i stage).callers = w.callers.set i { c with stage } :=
  congrArg Sharing.callers (change_eq_put h)

theorem nodup_moves (h : w.Sound) (hm : Moves session w after) : after.registry.loaded.Nodup := by
  cases hm with
  | keep i c name replica here stage =>
    obtain ⟨-, -, hnone, rfl, -⟩ := h.knows_at here stage
    rw [keep, note, registry_goTo, Registry.loaded_insert, List.nodup_append]
    refine ⟨h.nodup, List.nodup_singleton _, ?_⟩
    rintro a ha b hb rfl
    rw [List.mem_singleton.mp hb] at ha
    exact Registry.get?_eq_none.mp hnone ha
  | _ => exact h.nodup

theorem kept_moves (h : w.Sound) (hm : Moves session w after) (name : String) (id : ReplicaId) :
    .kept name id ∈ after.log ↔ after.registry.get? name = some id := by
  cases hm with
  | keep i c name' replica here stage =>
    obtain ⟨-, -, hnone, rfl, -⟩ := h.knows_at here stage
    simp only [keep, note, registry_goTo, log_goTo, List.mem_cons, Happening.kept.injEq]
    by_cases hname : replica.name = name
    · subst hname
      have hno : ¬ .kept replica.name id ∈ w.log := by simp [h.kept, hnone]
      simp [Registry.get?_insert_self hnone, hno, eq_comm]
    · simp [Registry.get?_insert_of_ne hname, h.kept, Ne.symm hname]
  | serve | leave | miss | fail | read => simpa [serve, note] using h.kept name id
  | stay | arrive | disturb | turn | queue | lock | find => exact h.kept name id

/-- A line of the log about a database that is listed stays one. -/
theorem listed_moves (h : w.Sound) (hm : Moves session w after) :
    ∀ x ∈ after.log, x.Listed after.registry := by
  cases hm with
  | serve i c call answer here stage said =>
    refine List.forall_mem_cons.mpr ⟨?_, h.listed⟩
    cases call with
    | load name =>
      cases answer with
      | ok id => exact .inl (h.listed _ ((h.kept name id).mpr said))
      | error e => exact .inr (congrArg Except.error said.2)
    | get | loaded => trivial
  | miss i c name here stage =>
    have hk := h.knows_at here stage
    exact List.forall_mem_cons.mpr ⟨hk.2, h.listed⟩
  | fail i c name e device here stage | read i c name replica device here stage =>
    have hk := h.knows_at here stage
    exact List.forall_mem_cons.mpr ⟨hk.2.1, h.listed⟩
  | keep i c name replica here stage =>
    have hk := h.knows_at here stage
    exact List.forall_mem_cons.mpr ⟨hk.2.1, h.listed⟩
  | leave i c name answer here stage =>
    have hk := h.knows_at here stage
    exact List.forall_mem_cons.mpr ⟨.inl hk.2.1, h.listed⟩
  | stay | arrive | disturb | turn | queue | lock | find => exact h.listed

/-- What a look says fits the log. -/
theorem Sound.fits_of_says (h : w.Sound) {call : Call} {answer : call.Answer}
    (said : Says w.registry call answer) : (Happening.answered call answer).Fits w.log := by
  cases call with
  | load name =>
    cases answer with
    | ok id => exact (h.kept name id).mpr said
    | error e => trivial
  | get name =>
    intro id
    rw [h.kept, show answer = w.registry.get? name from said]
  | loaded =>
    obtain rfl : answer = w.registry.loaded := said
    refine ⟨h.nodup, fun name => ?_⟩
    simp only [h.kept, ← Registry.isSome_get?, Option.isSome_iff_exists]

theorem told_moves (h : w.Sound) (hm : Moves session w after) : Told after.log := by
  cases hm with
  | serve i c call answer here stage said => exact ⟨h.fits_of_says said, h.told⟩
  | miss i c name here stage missing =>
    exact ⟨h.not_read here (by rw [stage]; rfl) (by simp [stage]) missing, h.told⟩
  | fail i c name e device here stage | read i c name replica device here stage =>
    have hk := h.knows_at here stage
    exact ⟨h.not_read here (by rw [stage]; rfl) (by simp [stage]) hk.2.2, h.told⟩
  | keep i c name replica here stage =>
    obtain ⟨-, -, hnone, -, hread⟩ := h.knows_at here stage
    exact ⟨⟨hread, fun id => by simp [h.kept, hnone]⟩, h.told⟩
  | leave i c name answer here stage =>
    have hk := h.knows_at here stage
    refine ⟨?_, h.told⟩
    cases answer with
    | ok id => exact (h.kept name id).mpr (hk.2.2 id rfl)
    | error e => trivial
  | stay | arrive | disturb | turn | queue | lock | find => exact h.told

/-- Whoever is about to keep a replica still is after somebody moved, unless it was the one. -/
theorem Keeps.set {d : Caller} (h : w.Keeps name) (hi : w.callers[i]? = some c)
    (hstay : ∀ replica, c.stage = .keeping name replica → d.stage = .keeping name replica)
    (hcallers : after.callers = w.callers.set i d) : after.Keeps name := by
  obtain ⟨j, e, replica, hj, hstage⟩ := h
  by_cases hij : i = j
  · subst hij
    obtain rfl : c = e := by simpa [hi] using hj
    have hlt := (List.getElem?_eq_some_iff.mp hi).1
    exact ⟨i, d, replica, by simp [hcallers, hlt], hstay replica hstage⟩
  · exact ⟨j, e, replica, by rw [hcallers, List.getElem?_set_ne hij, hj], hstage⟩

theorem read_moves (h : w.Sound) (hm : Moves session w after) (name : String)
    (hread : .read name true ∈ after.log) :
    (after.registry.get? name).isSome ∨ after.Keeps name := by
  have carry (hmem : .read name true ∈ w.log) {i : CallerId} {c d : Caller}
      (here : w.callers[i]? = some c)
      (hstay : ∀ replica, c.stage = .keeping name replica → d.stage = .keeping name replica)
      (hcallers : after.callers = w.callers.set i d)
      (hget : after.registry.get? name = w.registry.get? name) :
      (after.registry.get? name).isSome ∨ after.Keeps name :=
    hget ▸ (h.read name hmem).imp_right fun hk => hk.set here hstay hcallers
  cases hm with
  | stay | disturb => exact h.read name hread
  | arrive c free =>
    refine (h.read name hread).imp_right fun ⟨i, d, replica, hi, hstage⟩ => ?_
    have hlt := (List.getElem?_eq_some_iff.mp hi).1
    exact ⟨i, d, replica, List.getElem?_append_left hlt ▸ hi, hstage⟩
  | turn i c d here same =>
    refine carry hread here (fun replica hkeep => ?_) rfl rfl
    rcases same with heq | ⟨hfree, -⟩
    · rw [heq, hkeep]
    · simp [hkeep, Stage.isFree] at hfree
  | serve i c call answer here stage said =>
    refine carry ?_ here (by simp [stage]) (callers_goTo here) rfl
    simpa [serve, note] using hread
  | queue i c name' here stage lists =>
    exact carry hread here (by simp [stage]) (callers_goTo here) rfl
  | lock i c name' here stage free =>
    exact carry hread here (by simp [stage]) (callers_goTo here) rfl
  | find i c name' id here stage found =>
    exact carry hread here (by simp [stage]) (callers_goTo here) rfl
  | miss i c name' here stage missing =>
    refine carry ?_ here (by simp [stage]) (callers_goTo here) rfl
    simpa [note] using hread
  | fail i c name' e device here stage load =>
    refine carry ?_ here (by simp [stage]) (callers_goTo here) rfl
    simpa [note] using hread
  | read i c name' replica device here stage load =>
    by_cases hname : name = name'
    · subst hname
      have hlt := (List.getElem?_eq_some_iff.mp here).1
      exact .inr ⟨i, { c with stage := .keeping name replica }, replica,
        (congrArg (·[i]?) (callers_goTo here)).trans (by simp [hlt]), rfl⟩
    · refine carry ?_ here (by simp [stage]) (callers_goTo here) rfl
      simpa [note, hname] using hread
  | keep i c name' replica here stage =>
    obtain ⟨-, -, hnone, rfl, -⟩ := h.knows_at here stage
    by_cases hname : replica.name = name
    · subst hname
      exact .inl (by simp [keep, note, Registry.get?_insert_self hnone])
    · refine carry ?_ here (fun r hkeep => ?_) (callers_goTo here) (Registry.get?_insert_of_ne hname)
      · simpa [keep, note] using hread
      · rw [stage] at hkeep
        exact absurd (Stage.keeping.inj hkeep).1 hname
  | leave i c name' answer here stage =>
    refine carry ?_ here (by simp [stage]) (callers_goTo here) rfl
    simpa [serve, note] using hread

/-- The callers after one of them moved: the one that moved and the others. -/
theorem knows_set {d : Caller} (hcallers : after.callers = w.callers.set i d)
    (hself : after.Knows i d.stage)
    (hothers : ∀ j c, j ≠ i → w.callers[j]? = some c → after.Knows j c.stage) :
    ∀ j c, after.callers[j]? = some c → after.Knows j c.stage := by
  intro j c hc
  rw [hcallers, List.getElem?_set] at hc
  by_cases hij : i = j
  · subst hij
    obtain ⟨-, rfl⟩ : _ ∧ d = c := by simpa using hc
    exact hself
  · rw [if_neg hij] at hc
    exact hothers j c (Ne.symm hij) hc

theorem knows_moves (h : w.Sound) (hm : Moves session w after) :
    ∀ i c, after.callers[i]? = some c → after.Knows i c.stage := by
  -- What the others know outlives a turn that leaves registry and lock alone, and a turn of the
  -- caller that has the lock.
  have kept (hreg : after.registry = w.registry) (hlock : after.lock = w.lock)
      (hlog : ∀ x ∈ w.log, x ∈ after.log) (j : CallerId) (e : Caller)
      (hj : w.callers[j]? = some e) : after.Knows j e.stage :=
    (h.knows j e hj).mono hreg hlock hlog
  have others {i : CallerId} (hlock : w.lock = none ∨ w.lock = some i)
      (hlist : ∀ name, after.registry.lists name = w.registry.lists name) (j : CallerId)
      (e : Caller) (hij : j ≠ i) (hj : w.callers[j]? = some e) : after.Knows j e.stage := by
    refine (h.knows j e hj).of_lock_ne (fun heq => ?_) hlist
    rcases hlock with hnone | hsome
    · simp [hnone] at heq
    · exact hij (by simpa [hsome] using heq.symm)
  cases hm with
  | stay | disturb => exact kept rfl rfl fun _ hx => hx
  | arrive c free =>
    intro j e hj
    rw [show (w.arrive c).callers = w.callers ++ [c] from rfl, List.getElem?_append] at hj
    split at hj
    · exact kept rfl rfl (fun _ hx => hx) j e hj
    · obtain rfl := List.mem_singleton.mp (List.mem_of_getElem? hj)
      exact knows_of_isFree free
  | turn i c d here same =>
    refine knows_set rfl ?_ fun j e _ => kept rfl rfl (fun _ hx => hx) j e
    rcases same with heq | ⟨-, hfree⟩
    · rw [heq]
      exact h.knows i c here
    · exact knows_of_isFree hfree
  | serve i c call answer here stage said =>
    exact knows_set (callers_goTo here) trivial
      fun j e _ => kept rfl rfl (fun _ => List.mem_cons_of_mem _) j e
  | queue i c name here stage lists =>
    exact knows_set (callers_goTo here) lists fun j e _ => kept rfl rfl (fun _ hx => hx) j e
  | lock i c name here stage free =>
    exact knows_set (callers_goTo here) ⟨rfl, h.knows_at here stage⟩ (others (.inl free) fun _ => rfl)
  | find i c name id here stage found =>
    obtain ⟨hlock, hlist⟩ := h.knows_at here stage
    refine knows_set (callers_goTo here) ⟨hlock, hlist, fun id' hid => ?_⟩
      fun j e _ => kept rfl rfl (fun _ hx => hx) j e
    cases hid
    exact found
  | miss i c name here stage missing =>
    obtain ⟨hlock, hlist⟩ := h.knows_at here stage
    exact knows_set (callers_goTo here) ⟨hlock, hlist, missing⟩
      fun j e _ => kept rfl rfl (fun _ => List.mem_cons_of_mem _) j e
  | fail i c name e device here stage load =>
    obtain ⟨hlock, hlist, -⟩ := h.knows_at here stage
    exact knows_set (callers_goTo here) ⟨hlock, hlist, fun _ hid => nomatch hid⟩
      fun j e _ => kept rfl rfl (fun _ => List.mem_cons_of_mem _) j e
  | read i c name replica device here stage load =>
    obtain ⟨hlock, hlist, hnone⟩ := h.knows_at here stage
    exact knows_set (callers_goTo here)
      ⟨hlock, hlist, hnone, name_load load, List.mem_cons_self⟩
      fun j e _ => kept rfl rfl (fun _ => List.mem_cons_of_mem _) j e
  | keep i c name replica here stage =>
    obtain ⟨hlock, hlist, hnone, rfl, -⟩ := h.knows_at here stage
    refine knows_set (callers_goTo here) ⟨hlock, hlist, fun id hid => ?_⟩
      (others (.inr hlock) fun _ => rfl)
    cases hid
    exact Registry.get?_insert_self hnone
  | leave i c name answer here stage =>
    obtain ⟨hlock, -⟩ := h.knows_at here stage
    exact knows_set (callers_goTo here) trivial (others (.inr hlock) fun _ => rfl)

theorem Sound.moves (h : w.Sound) (hm : Moves session w after) : after.Sound where
  knows := knows_moves h hm
  nodup := nodup_moves h hm
  kept := kept_moves h hm
  read := read_moves h hm
  listed := listed_moves h hm
  told := told_moves h hm

theorem Sound.run (h : w.Sound) (turns : List (Turn σ)) : (run session w turns).Sound := by
  induction turns generalizing w with
  | nil => exact h
  | cons t turns ih => exact ih (h.moves (moves_turn t))

theorem catalog_moves (hm : Moves session w after) :
    after.registry.catalog = w.registry.catalog := by
  cases hm <;> rfl

theorem catalog_run (turns : List (Turn σ)) :
    (run session w turns).registry.catalog = w.registry.catalog := by
  induction turns generalizing w with
  | nil => rfl
  | cons t turns ih => exact ih.trans (catalog_moves (moves_turn t))

/-- The log says nothing of a database that is not listed but that it was refused. -/
theorem Sound.unlisted (h : w.Sound) (hlist : w.registry.lists name = false) :
    (∀ answer, .answered (.load name) answer ∈ w.log → answer = .error (.unknownDatabase name)) ∧
      .started name ∉ w.log ∧ ∀ succeeded, .read name succeeded ∉ w.log := by
  have hno : ¬ w.registry.lists name := by simp [hlist]
  exact ⟨fun answer hmem => (h.listed _ hmem).resolve_left hno, fun hmem => hno (h.listed _ hmem),
    fun _ hmem => hno (h.listed _ hmem)⟩

/-! ## Single callers -/

theorem step_of_getElem? (h : w.callers[i]? = some c) :
    w.step session i = w.stepFrom session i c.stage := by
  rw [step, h]

theorem getElem?_goTo (h : w.callers[i]? = some c) :
    (w.goTo i stage).callers[i]? = some { c with stage } := by
  simp [callers_goTo h, (List.getElem?_eq_some_iff.mp h).1]

/-- A database that is not listed is refused at once. -/
theorem Sound.refuses (h : w.Sound) (hlist : w.registry.lists name = false)
    (hc : w.callers[i]? = some c) (hstage : c.stage = .asking (.load name)) :
    w.step session i = w.serve i (.load name) (.error (.unknownDatabase name)) := by
  have hnone : w.registry.get? name = none := by
    by_contra hsome
    obtain ⟨id, hid⟩ := Option.ne_none_iff_exists'.mp hsome
    have hlisted : w.registry.lists name := h.listed _ ((h.kept name id).mpr hid)
    simp [hlist] at hlisted
  rw [step_of_getElem? hc, hstage]
  simp [stepFrom, look, hnone, hlist]

theorem device_look (call : Call) : (w.look i call).device = w.device := by
  cases call with
  | load name =>
    simp only [look]
    split
    · rfl
    · split <;> rfl
  | get | loaded => rfl

/-- Only a caller that reads uses the device. -/
theorem device_step (hc : w.callers[i]? = some c) (hstage : ∀ name, c.stage ≠ .reading name) :
    (w.step session i).device = w.device := by
  rw [step_of_getElem? hc]
  cases hs : c.stage with
  | reading name => exact absurd hs (hstage name)
  | idle | keeping | leaving => rfl
  | asking call => exact device_look call
  | queued name =>
    simp only [stepFrom]
    split <;> rfl
  | locked name =>
    simp only [stepFrom, lookAgain]
    split <;> rfl
  | served call answer =>
    cases call with
    | load name =>
      simp only [stepFrom]
      split <;> rfl
    | get | loaded => rfl

/-- A load that fails leaves the replicas alone and gives the lock back. -/
theorem steps_of_failed {e : Error} {device : σ} (hc : w.callers[i]? = some c)
    (hstage : c.stage = .reading name)
    (hload : Replica.load session name w.device = (.error e, device)) :
    let after := (w.step session i).step session i
    after.registry = w.registry ∧ after.lock = none ∧
      after.callers[i]? = some { c with stage := .served (.load name) (.error e) } := by
  have hfirst : w.step session i =
      (({ w with device }.goTo i (.leaving name (.error e))).note (.read name false)) := by
    rw [step_of_getElem? hc, hstage]
    simp only [stepFrom, Sharing.read, hload]
  have hthere : (w.step session i).callers[i]? =
      some { c with stage := .leaving name (.error e) } := by
    rw [hfirst]
    exact getElem?_goTo hc
  have hsecond : (w.step session i).step session i =
      { w.step session i with lock := none }.serve i (.load name) (.error e) :=
    step_of_getElem? hthere
  refine ⟨?_, ?_, ?_⟩
  · rw [hsecond, hfirst]
    rfl
  · rw [hsecond]
    rfl
  · have hlast : ∀ s, ((w.step session i).goTo i s).callers[i]? = some { c with stage := s } :=
      fun s => by rw [getElem?_goTo hthere]
    rw [hsecond]
    exact hlast _

/-! ## A caller nobody else interferes with -/

section Alone

variable {r : Registry} {d : σ} {cs : List Caller} {k : Option CallerId} {l : List Happening}

theorem step_last : step session ⟨r, d, cs ++ [⟨stage, []⟩], k, l⟩ cs.length =
    stepFrom session ⟨r, d, cs ++ [⟨stage, []⟩], k, l⟩ cs.length stage :=
  step_of_getElem? (c := ⟨stage, []⟩) (by simp)

theorem goTo_last {next : Stage} : goTo ⟨r, d, cs ++ [⟨stage, []⟩], k, l⟩ cs.length next =
    ⟨r, d, cs ++ [⟨next, []⟩], k, l⟩ := by
  rw [goTo, change_eq_put (c := ⟨stage, []⟩) (by simp)]
  simp [put]

theorem next_last : change ⟨r, d, cs ++ [⟨stage, []⟩], k, l⟩ cs.length Caller.next =
    ⟨r, d, cs ++ [⟨stage, []⟩], k, l⟩ := by
  rw [change_eq_put (c := ⟨stage, []⟩) (by simp)]
  simp [put, Caller.next]

/-- Where nobody has the lock, a call nobody interferes with loads as the registry does. -/
theorem run_load (hlock : w.lock = none) (name : String) :
    let (answer, registry, device) := w.registry.load session name w.device
    ∃ log, Sharing.run session w (.call (.load name) :: List.replicate 6 (.go w.callers.length)) =
      { registry, device, lock := none, log
        callers := w.callers ++ [{ stage := .served (.load name) answer }] } := by
  obtain ⟨r, d, cs, lock, log⟩ := w
  obtain rfl : lock = none := hlock
  simp only [Sharing.run, List.replicate, List.foldl_cons, List.foldl_nil, turn, arrive, step_last,
    stepFrom, look, Registry.load]
  cases hget : r.get? name with
  | some id => simp [serve, note, goTo_last, step_last, stepFrom, next_last]
  | none =>
    cases hlist : r.lists name with
    | false => simp [serve, note, goTo_last, step_last, stepFrom, next_last]
    | true =>
      -- The caller queues, takes the lock and misses the database again before it reads.
      simp only [if_true, goTo_last, step_last, stepFrom, Option.isSome_none, Bool.false_eq_true,
        if_false, lookAgain, hget, note, Sharing.read, Registry.fetch]
      cases hload : Replica.load session name d with
      | mk answer device =>
        cases answer with
        | error e => simp [serve, note, goTo_last, step_last, stepFrom, next_last]
        | ok replica => simp [keep, serve, note, goTo_last, step_last, stepFrom]

end Alone

end Sharing

/-! ## What callers may rely on -/

/-- What holds of a registry for this catalog in whatever state its callers have brought it to. -/
structure LoadsOnce {σ : Type} (session : Device.Session σ) (catalog : List CatalogEntry)
    (w : Sharing σ) : Prop where
  catalog_eq : w.registry.catalog = catalog
  /-- After a load succeeded, no load of that database begins or ends. -/
  once : ∀ later earlier name, w.log = later ++ .read name true :: earlier →
    .started name ∉ later ∧ ∀ succeeded, .read name succeeded ∉ later
  /-- All loads that were answered were answered alike, -/
  same : ∀ name i j, .answered (.load name) (.ok i) ∈ w.log →
    .answered (.load name) (.ok j) ∈ w.log → i = j
  /-- every look after one of them finds what it answered, -/
  found : ∀ later earlier name i answer, w.log = later ++ .answered (.load name) (.ok i) :: earlier →
    .answered (.get name) answer ∈ later → answer = some i
  /-- and that is the number of a replica of the database. -/
  replica : ∀ name i, .answered (.load name) (.ok i) ∈ w.log →
    w.registry.get? name = some i ∧ ∃ r, w.registry.replicas[i]? = some r ∧ r.name = name
  /-- A load that fails leaves the registry as it was, -/
  failed : ∀ i (c : Caller) name e device, w.callers[i]? = some c → c.stage = .reading name →
    Replica.load session name w.device = (.error e, device) →
    let after := (w.step session i).step session i
    after.registry = w.registry ∧ after.lock = none ∧
      after.callers[i]? = some { c with stage := .served (.load name) (.error e) }
  /-- and whenever nobody has the lock, a call goes through as on a registry of its own. -/
  retried : w.lock = none → ∀ name,
    let (answer, registry, device) := w.registry.load session name w.device
    ∃ log, w.run session (.call (.load name) :: List.replicate 6 (.go w.callers.length)) =
      { registry, device, lock := none, log
        callers := w.callers ++ [{ stage := .served (.load name) answer }] }
  /-- A database that is not listed is refused in one section, which leaves the device alone, -/
  refused : ∀ i (c : Caller) name, w.registry.lists name = false → w.callers[i]? = some c →
    c.stage = .asking (.load name) →
    w.step session i = w.serve i (.load name) (.error (.unknownDatabase name))
  /-- is never answered in another way, and never loaded. -/
  unknown : ∀ name, w.registry.lists name = false →
    (∀ answer, .answered (.load name) answer ∈ w.log → answer = .error (.unknownDatabase name)) ∧
      .started name ∉ w.log ∧ ∀ succeeded, .read name succeeded ∉ w.log
  /-- Only a caller that loads a listed database uses the device. -/
  quiet : ∀ i (c : Caller), w.callers[i]? = some c →
    (∀ name, c.stage = .reading name → w.registry.lists name = false) →
    (w.step session i).device = w.device
  /-- The databases loaded are those whose load succeeded and was kept, each once, -/
  loaded : w.registry.loaded.Nodup ∧ ∀ name, name ∈ w.registry.loaded ↔
    ∃ i, .kept name i ∈ w.log ∧ .read name true ∈ w.log
  /-- and whoever asked for them was told those of the moment. -/
  told : ∀ later earlier names, w.log = later ++ .answered .loaded names :: earlier →
    names.Nodup ∧ ∀ name, name ∈ names ↔ ∃ i, .kept name i ∈ earlier

theorem Sharing.Sound.guarantees {σ : Type} {session : Device.Session σ} {w : Sharing σ}
    {catalog : List CatalogEntry} (h : w.Sound) (hcatalog : w.registry.catalog = catalog) :
    LoadsOnce session catalog w where
  catalog_eq := hcatalog
  once later earlier name hlog := by
    have ht : Told (later ++ .read name true :: earlier) := hlog ▸ h.told
    exact ht.once
  same name i j hi hj := h.told.kept_unique (h.told.kept_of_answered hi) (h.told.kept_of_answered hj)
  found later earlier name i answer hlog hmem := by
    have ht : Told (later ++ .answered (.load name) (.ok i) :: earlier) := hlog ▸ h.told
    exact ht.found hmem
  replica name i hi := by
    have hget := (h.kept name i).mp (h.told.kept_of_answered hi)
    exact ⟨hget, Registry.getElem?_of_get? hget⟩
  failed i c name e device hc hstage hload := steps_of_failed hc hstage hload
  retried hlock name := run_load hlock name
  refused i c name hlist hc hstage := h.refuses hlist hc hstage
  unknown name hlist := h.unlisted hlist
  quiet i c hc hstage := by
    refine device_step hc fun name hs => ?_
    have hlisted := (h.knows_at hc hs).2.1
    simp [hstage name hs] at hlisted
  loaded := by
    refine ⟨h.nodup, fun name => ?_⟩
    rw [← Registry.isSome_get?, Option.isSome_iff_exists]
    refine exists_congr fun i => ?_
    rw [← h.kept]
    exact ⟨fun hkept => ⟨hkept, h.told.read_of_kept hkept⟩, And.left⟩
  told later earlier names hlog := h.told.fits hlog

/-- **At most once.**  Whatever calls are made on a registry and however their sections interleave,
with one another, with warm-ups and with others that use the device, and whenever the device refuses
a command: each database is loaded at most once, and everybody gets that one replica. -/
theorem loadsOnce {σ : Type} (session : Device.Session σ) (catalog : List CatalogEntry) (device : σ)
    (turns : List (Sharing.Turn σ)) :
    LoadsOnce session catalog (Sharing.run session (.start { catalog } device []) turns) :=
  Sharing.Sound.guarantees ((Sharing.sound_start catalog device).run turns)
    (Sharing.catalog_run turns)

end Palmtop.Replica
