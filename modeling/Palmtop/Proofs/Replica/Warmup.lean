import Palmtop.Proofs.Replica.Hosting
import Palmtop.Proofs.Replica.Sharing
import Palmtop.Replica.Warmup

/-! # What a warm-up loads

A warm-up walks down its list and stops at the end, where it finds itself cancelled, or at the first
load the device refuses.  `Warms` lists what it does with one name, a constructor each, and every
fact about a whole warm-up is an induction on it.

All of them speak of the names *considered*, the part of the list before the stop.  Which of those
are read off the device can be told from the registry the warm-up began with (`Registry.missing`):
what is listed and was not loaded, and of a name that is repeated only the first, since by the
second the replica is there.  The state behind the session after any part of a warm-up is that after
these reads (`reading`).
-/
namespace Palmtop

/-! ## Names in a transcript -/

namespace Device

/-- The database a command looks up by name. -/
def Command.name? : Command → Option String
  | .databaseId name => some name
  | _ => none

/-- The databases looked up by name, in this order. -/
def lookedUp (transcript : List Exchange) : List String :=
  transcript.reverse.filterMap (·.command.name?)

@[simp] theorem lookedUp_nil : lookedUp [] = [] := rfl

@[simp] theorem lookedUp_cons (e : Exchange) (transcript : List Exchange) :
    lookedUp (e :: transcript) = lookedUp transcript ++ e.command.name?.toList := by
  rw [lookedUp, List.reverse_cons, List.filterMap_append]
  cases h : e.command.name? <;> simp [h, lookedUp]

end Device

namespace Replica

open Device (Exchange accepted lookedUp)

/-! ## Reading databases in order -/

section reading
variable {σ : Type} (session : Device.Session σ)

/-- The state after these databases were read, each whether or not it could be. -/
def reading (names : List String) (s : σ) : σ :=
  names.foldl (fun s name => (Replica.load session name s).2) s

@[simp] theorem reading_nil (s : σ) : reading session [] s = s := rfl

@[simp] theorem reading_cons (name : String) (names : List String) (s : σ) :
    reading session (name :: names) s = reading session names (Replica.load session name s).2 :=
  rfl

theorem lookedUp_readAll (id : Device.DatabaseId) (slots : List Slot) (s : σ × List Exchange) :
    lookedUp (readAll session.recorded id slots s).2.2 = lookedUp s.2 := by
  induction slots generalizing s with
  | nil => rfl
  | cons slot rest ih =>
    simp only [readAll, Device.Session.readRecord]
    split
    · next hrun => simp [(Device.of_recorded hrun).2, Device.Command.name?]
    · next record s₁ hrun =>
      have hfirst : lookedUp s₁.2 = lookedUp s.2 := by
        simp [(Device.of_recorded hrun).2, Device.Command.name?]
      have hrest := (ih s₁).trans hfirst
      split
      · next hread => rwa [hread] at hrest
      · next hread => rwa [hread] at hrest

/-- A read looks its database up and no other. -/
theorem lookedUp_load (name : String) (s : σ × List Exchange) :
    lookedUp (Replica.load session.recorded name s).2.2 = lookedUp s.2 ++ [name] := by
  simp only [Replica.load, Device.Session.databaseId, Device.Session.slotTable]
  split
  · next hid => simp [(Device.of_recorded hid).2, Device.Command.name?]
  · next id s₁ hid =>
    have hfirst : lookedUp s₁.2 = lookedUp s.2 ++ [name] := by
      simp [(Device.of_recorded hid).2, Device.Command.name?]
    split
    · next htable => simp [(Device.of_recorded htable).2, Device.Command.name?, hfirst]
    · next table s₂ htable =>
      have hsecond : lookedUp s₂.2 = lookedUp s₁.2 := by
        simp [(Device.of_recorded htable).2, Device.Command.name?]
      have hrest := lookedUp_readAll session id table.slots s₂
      rw [hsecond, hfirst] at hrest
      split
      · next hread => rwa [hread] at hrest
      · next hread => rwa [hread] at hrest

theorem lookedUp_reading (names : List String) (s : σ × List Exchange) :
    lookedUp (reading session.recorded names s).2 = lookedUp s.2 ++ names := by
  induction names generalizing s with
  | nil => simp
  | cons name rest ih => rw [reading_cons, ih, lookedUp_load, List.append_assoc]; rfl

variable {session}

theorem ofDevice_ne_unknownDatabase (e : Device.Error) (name : String) :
    Error.ofDevice e ≠ .unknownDatabase name := by
  cases e <;> simp [Error.ofDevice]

theorem readAll_ne_unknownDatabase {id : Device.DatabaseId} {slots : List Slot} {s s' : σ}
    {e : Error} (h : readAll session id slots s = (.error e, s')) (name : String) :
    e ≠ .unknownDatabase name := by
  induction slots generalizing s with
  | nil => cases h
  | cons slot rest ih =>
    unfold readAll at h
    split at h
    · cases h
      exact ofDevice_ne_unknownDatabase _ name
    · split at h
      · next hread =>
        cases h
        exact ih hread
      · cases h

/-- A read that fails does so with an error of the device. -/
theorem load_ne_unknownDatabase {asked name : String} {s s' : σ} {e : Error}
    (h : Replica.load session asked s = (.error e, s')) : e ≠ .unknownDatabase name := by
  unfold Replica.load at h
  split at h
  · cases h
    exact ofDevice_ne_unknownDatabase _ name
  · split at h
    · cases h
      exact ofDevice_ne_unknownDatabase _ name
    · split at h
      · next hread =>
        cases h
        exact readAll_ne_unknownDatabase hread name
      · cases h

end reading

/-! ## What has to be read -/

theorem nodup_eraseDups (names : List String) : names.eraseDups.Nodup := by
  cases names with
  | nil => exact List.nodup_nil
  | cons name rest =>
    rw [List.eraseDups_cons, List.nodup_cons]
    constructor
    · simp
    · exact nodup_eraseDups (rest.filter fun other => !other == name)
termination_by names.length
decreasing_by exact Nat.lt_succ_of_le (List.length_filter_le _ _)

namespace Registry

variable {r : Registry} {name : String} {names : List String} {replica : Replica}

/-- Every replica is of a database the catalog lists. -/
def Sound (r : Registry) : Prop := ∀ name ∈ r.loaded, r.lists name

theorem sound_of_catalog (catalog : List CatalogEntry) : Sound { catalog } := by
  simp [Sound, loaded]

theorem Sound.insert (h : r.Sound) (hlist : r.lists replica.name) : (r.insert replica).Sound := by
  intro name hname
  rw [loaded_insert, List.mem_append, List.mem_singleton] at hname
  rcases hname with hname | rfl
  · exact h name hname
  · exact hlist

/-- What of these names a warm-up reads: the listed databases that are not loaded, each once. -/
def missing (r : Registry) (names : List String) : List String :=
  (names.filter fun name => r.lists name && (r.get? name).isNone).eraseDups

@[simp] theorem missing_nil : r.missing [] = [] := rfl

theorem isNone_get? : (r.get? name).isNone ↔ name ∉ r.loaded := by
  rw [Option.isNone_iff_eq_none, get?_eq_none]

theorem mem_missing : name ∈ r.missing names ↔ name ∈ names ∧ r.lists name ∧ name ∉ r.loaded := by
  simp only [missing, List.mem_eraseDups, List.mem_filter, Bool.and_eq_true, isNone_get?]

theorem nodup_missing (names : List String) : (r.missing names).Nodup :=
  nodup_eraseDups _

/-- A database that is loaded or not listed need not be read. -/
theorem missing_cons_of_settled (h : r.lists name → name ∈ r.loaded) :
    r.missing (name :: names) = r.missing names := by
  have hsettled : (r.lists name && (r.get? name).isNone) = false := by
    rw [Bool.and_eq_false_imp]
    intro hlist
    simpa using isSome_get?.mpr (h hlist)
  simp [missing, hsettled]

/-- Reading a database takes it off what is to be read. -/
theorem missing_cons_of_read (hlist : r.lists replica.name) (hmiss : replica.name ∉ r.loaded) :
    r.missing (replica.name :: names) = replica.name :: (r.insert replica).missing names := by
  have hnone : (r.get? replica.name).isNone := isNone_get?.mpr hmiss
  rw [missing, List.filter_cons_of_pos (by simp [hlist, hnone]), List.eraseDups_cons,
    List.filter_filter, missing]
  congr 2
  refine List.filter_congr fun name _ => ?_
  rw [lists_insert]
  by_cases hname : name = replica.name
  · have hin : ((r.insert replica).get? name).isNone = false := by
      rw [hname, get?_insert_self (get?_eq_none.mpr hmiss)]
      rfl
    simp [hname ▸ hin, hname]
  · simp [hname, get?_insert_of_ne (Ne.symm hname)]

theorem missing_singleton (hlist : r.lists name) (hmiss : name ∉ r.loaded) :
    r.missing [name] = [name] := by
  have hnone : (r.get? name).isNone := isNone_get?.mpr hmiss
  simp [missing, hlist, hnone, List.eraseDups_cons]

end Registry

/-- Whatever calls are made on a registry, it stays sound. -/
theorem Sharing.Sound.registry {σ : Type} {w : Sharing σ} (h : w.Sound) : w.registry.Sound := by
  intro name hname
  obtain ⟨id, hid⟩ := Option.isSome_iff_exists.mp (Registry.isSome_get?.mpr hname)
  exact h.listed _ ((h.kept name id).mpr hid)

/-! ## Reads that fail -/

/-- A database that has to be read, after a warm-up has come past these names, and cannot be. -/
structure FailsAfter {σ : Type} (session : Device.Session σ) (r : Registry) (s : σ)
    (before : List String) (name : String) (e : Error) : Prop where
  listed : r.lists name
  missing : name ∉ r.loaded
  fresh : name ∉ before
  load : (Replica.load session name (reading session (r.missing before) s)).1 = .error e

namespace FailsAfter

variable {σ : Type} {session : Device.Session σ} {r : Registry} {s s₁ : σ} {first name : String}
  {before : List String} {replica : Replica} {e : Error}

theorem cons_settled (settled : r.lists first → first ∈ r.loaded) :
    FailsAfter session r s (first :: before) name e ↔ FailsAfter session r s before name e := by
  constructor
  · rintro ⟨listed, missing, fresh, load⟩
    rw [Registry.missing_cons_of_settled settled] at load
    exact ⟨listed, missing, fun hmem => fresh (List.mem_cons_of_mem _ hmem), load⟩
  · rintro ⟨listed, missing, fresh, load⟩
    rw [← Registry.missing_cons_of_settled settled] at load
    refine ⟨listed, missing, fun hmem => ?_, load⟩
    rcases List.mem_cons.mp hmem with rfl | hmem
    · exact missing (settled listed)
    · exact fresh hmem

theorem cons_read (listed : r.lists replica.name) (missing : replica.name ∉ r.loaded)
    (read : Replica.load session replica.name s = (.ok replica, s₁)) :
    FailsAfter session r s (replica.name :: before) name e ↔
      FailsAfter session (r.insert replica) s₁ before name e := by
  have hreading : reading session (r.missing (replica.name :: before)) s =
      reading session ((r.insert replica).missing before) s₁ := by
    rw [Registry.missing_cons_of_read listed missing, reading_cons, read]
  constructor
  · rintro ⟨listed', missing', fresh, load⟩
    rw [hreading] at load
    rw [List.mem_cons, not_or] at fresh
    refine ⟨listed', fun hmem => ?_, fresh.2, load⟩
    rw [Registry.loaded_insert, List.mem_append, List.mem_singleton] at hmem
    exact hmem.elim missing' fresh.1
  · rintro ⟨listed', missing', fresh, load⟩
    rw [← hreading] at load
    rw [Registry.loaded_insert, List.mem_append, List.mem_singleton, not_or] at missing'
    exact ⟨listed', missing'.1, List.not_mem_cons_of_ne_of_not_mem missing'.2 fresh, load⟩

end FailsAfter

/-! ## One name after another -/

section warms
variable {σ : Type} {session : Device.Session σ} {cancelled : Nat → σ → Bool} {n : Nat}
  {r r' : Registry} {s s' : σ} {name : String} {considered before after rest found : List String}
  {outcome : Except Error (List String)} {e : Error}

/-- What a warm-up does from some name on, with the names it considers and those it leaves. -/
inductive Warms (session : Device.Session σ) (cancelled : Nat → σ → Bool) :
    Nat → Registry → σ → List String → List String →
      Except Error (List String) → Registry → σ → Prop
  | ended {n : Nat} {r : Registry} {s : σ} : Warms session cancelled n r s [] [] (.ok []) r s
  | stopped {n : Nat} {r : Registry} {s : σ} {rest : List String} (off : cancelled n s = true) :
      Warms session cancelled n r s [] rest (.ok []) r s
  /-- A database that is not listed is passed over. -/
  | passed {n : Nat} {r r' : Registry} {s s' : σ} {name : String} {considered rest : List String}
      {outcome : Except Error (List String)} (on : cancelled n s = false)
      (unlisted : ¬ r.lists name) (missing : name ∉ r.loaded)
      (later : Warms session cancelled (n + 1) r s considered rest outcome r' s') :
      Warms session cancelled n r s (name :: considered) rest outcome r' s'
  /-- One that is loaded costs nothing. -/
  | known {n : Nat} {r r' : Registry} {s s' : σ} {name : String} {considered rest : List String}
      {outcome : Except Error (List String)} (on : cancelled n s = false)
      (loaded : name ∈ r.loaded)
      (later : Warms session cancelled (n + 1) r s considered rest outcome r' s') :
      Warms session cancelled n r s (name :: considered) rest (outcome.map (name :: ·)) r' s'
  | read {n : Nat} {r r' : Registry} {s s₁ s' : σ} {replica : Replica}
      {considered rest : List String} {outcome : Except Error (List String)}
      (on : cancelled n s = false) (listed : r.lists replica.name)
      (missing : replica.name ∉ r.loaded)
      (load : Replica.load session replica.name s = (.ok replica, s₁))
      (later : Warms session cancelled (n + 1) (r.insert replica) s₁ considered rest outcome
        r' s') :
      Warms session cancelled n r s (replica.name :: considered) rest
        (outcome.map (replica.name :: ·)) r' s'
  | failed {n : Nat} {r : Registry} {s s' : σ} {name : String} {rest : List String} {e : Error}
      (on : cancelled n s = false) (listed : r.lists name) (missing : name ∉ r.loaded)
      (load : Replica.load session name s = (.error e, s')) :
      Warms session cancelled n r s [name] rest (.error e) r s'

/-- A warm-up does nothing else. -/
theorem warms_warmUpFrom (session : Device.Session σ) (cancelled : Nat → σ → Bool)
    (names : List String) (n : Nat) (r : Registry) (s : σ) :
    let (outcome, r', s') := warmUpFrom session cancelled names n r s
    ∃ considered rest, names = considered ++ rest ∧
      Warms session cancelled n r s considered rest outcome r' s' := by
  induction names generalizing n r s with
  | nil => exact ⟨[], [], rfl, .ended⟩
  | cons name names ih =>
    cases hoff : cancelled n s with
    | true =>
      simp only [warmUpFrom, hoff, if_true]
      exact ⟨[], _, rfl, .stopped hoff⟩
    | false =>
      simp only [warmUpFrom, hoff, Bool.false_eq_true, if_false, Registry.load]
      cases hget : r.get? name with
      | some id =>
        have hloaded : name ∈ r.loaded := Registry.isSome_get?.mp (by simp [hget])
        obtain ⟨considered, rest, rfl, h⟩ := ih (n + 1) r s
        exact ⟨name :: considered, rest, rfl, .known hoff hloaded h⟩
      | none =>
        have hmiss : name ∉ r.loaded := Registry.get?_eq_none.mp hget
        cases hlist : r.lists name with
        | false =>
          obtain ⟨considered, rest, rfl, h⟩ := ih (n + 1) r s
          exact ⟨name :: considered, rest, rfl, .passed hoff (by simp [hlist]) hmiss h⟩
        | true =>
          simp only [if_true, Registry.fetch]
          cases hload : Replica.load session name s with
          | mk answer s₁ =>
            cases answer with
            | error e =>
              have hne : ∀ other, e ≠ .unknownDatabase other :=
                fun _ => load_ne_unknownDatabase hload
              have h : Warms session cancelled n r s [name] names (.error e) r s₁ :=
                .failed hoff hlist hmiss hload
              cases e with
              | unknownDatabase other => exact absurd rfl (hne other)
              | readOnly | staleEntry | reconnect | device | noWorker =>
                exact ⟨[name], names, rfl, h⟩
            | ok replica =>
              obtain rfl := name_load hload
              obtain ⟨considered, rest, rfl, h⟩ := ih (n + 1) (r.insert replica) s₁
              exact ⟨replica.name :: considered, rest, rfl, .read hoff hlist hmiss hload h⟩

theorem map_eq_ok {f : List String → List String} :
    outcome.map f = .ok found ↔ ∃ later, outcome = .ok later ∧ f later = found := by
  cases outcome <;> simp [Except.map]

theorem map_eq_error {f : List String → List String} :
    outcome.map f = .error e ↔ outcome = .error e := by
  cases outcome <;> simp [Except.map]

namespace Warms

/-- A warm-up stops at the end of its list, where it is cancelled or with an error. -/
theorem stops (h : Warms session cancelled n r s considered rest outcome r' s') :
    rest = [] ∨ cancelled (n + considered.length) s' = true ∨ ∃ e, outcome = .error e := by
  induction h with
  | ended => exact .inl rfl
  | stopped off => exact .inr (.inl off)
  | passed _ _ _ _ ih =>
    rw [List.length_cons, ← Nat.add_assoc, Nat.add_right_comm]
    exact ih
  | known _ _ _ ih | read _ _ _ _ _ ih =>
    rw [List.length_cons, ← Nat.add_assoc, Nat.add_right_comm]
    simp only [map_eq_error]
    exact ih
  | failed => exact .inr (.inr ⟨_, rfl⟩)

theorem state_eq (h : Warms session cancelled n r s considered rest outcome r' s') :
    s' = reading session (r.missing considered) s := by
  induction h with
  | ended | stopped => rfl
  | passed _ unlisted _ _ ih => rw [Registry.missing_cons_of_settled (absurd · unlisted), ih]
  | known _ loaded _ ih => rw [Registry.missing_cons_of_settled (fun _ => loaded), ih]
  | read _ listed missing load _ ih =>
    rw [Registry.missing_cons_of_read listed missing, reading_cons, load, ih]
  | failed _ listed missing load =>
    rw [Registry.missing_singleton listed missing, reading_cons, reading_nil, load]

theorem catalog_eq (h : Warms session cancelled n r s considered rest outcome r' s') :
    r'.catalog = r.catalog := by
  induction h with
  | ended | stopped | failed => rfl
  | passed _ _ _ _ ih | known _ _ _ ih | read _ _ _ _ _ ih => exact ih

/-- What was there before stays, under its number. -/
theorem replicas_prefix (h : Warms session cancelled n r s considered rest outcome r' s') :
    r.replicas <+: r'.replicas := by
  induction h with
  | ended | stopped | failed => exact List.prefix_rfl
  | passed _ _ _ _ ih | known _ _ _ ih => exact ih
  | read _ _ _ _ _ ih => exact (List.prefix_append _ _).trans ih

/-- A warm-up that no load ended has loaded what was missing. -/
theorem loaded_eq (h : Warms session cancelled n r s considered rest outcome r' s')
    (hok : outcome = .ok found) : r'.loaded = r.loaded ++ r.missing considered := by
  induction h generalizing found with
  | ended | stopped => simp
  | passed _ unlisted _ _ ih => rw [Registry.missing_cons_of_settled (absurd · unlisted), ih hok]
  | known _ loaded _ ih =>
    obtain ⟨later, hlater, -⟩ := map_eq_ok.mp hok
    rw [Registry.missing_cons_of_settled fun _ => loaded, ih hlater]
  | read _ listed missing _ _ ih =>
    obtain ⟨later, hlater, -⟩ := map_eq_ok.mp hok
    rw [Registry.missing_cons_of_read listed missing, ih hlater, Registry.loaded_insert,
      List.append_assoc, List.singleton_append]
  | failed => cases hok

/-- It answers with the names the catalog lists. -/
theorem found_eq (h : Warms session cancelled n r s considered rest outcome r' s')
    (hr : r.Sound) (hok : outcome = .ok found) : found = considered.filter r.lists := by
  induction h generalizing found with
  | ended | stopped => cases hok; rfl
  | passed _ unlisted _ _ ih => rw [List.filter_cons_of_neg unlisted, ih hr hok]
  | known _ loaded _ ih =>
    obtain ⟨later, hlater, rfl⟩ := map_eq_ok.mp hok
    rw [List.filter_cons_of_pos (hr _ loaded), ih hr hlater]
  | read _ listed _ _ _ ih =>
    obtain ⟨later, hlater, rfl⟩ := map_eq_ok.mp hok
    rw [List.filter_cons_of_pos listed, ih (hr.insert listed) hlater]
    rfl
  | failed => cases hok

/-- No warm-up considers a name it finds itself cancelled before. -/
theorem on (h : Warms session cancelled n r s considered rest outcome r' s')
    (hat : considered = before ++ name :: after) :
    cancelled (n + before.length) (reading session (r.missing before) s) = false := by
  induction h generalizing before with
  | ended | stopped => simp at hat
  | passed on unlisted _ _ ih =>
    cases before with
    | nil => exact on
    | cons first before =>
      obtain ⟨rfl, hrest⟩ := List.cons.inj hat
      rw [Registry.missing_cons_of_settled (absurd · unlisted), List.length_cons,
        ← Nat.add_assoc, Nat.add_right_comm]
      exact ih hrest
  | known on loaded _ ih =>
    cases before with
    | nil => exact on
    | cons first before =>
      obtain ⟨rfl, hrest⟩ := List.cons.inj hat
      rw [Registry.missing_cons_of_settled (fun _ => loaded), List.length_cons,
        ← Nat.add_assoc, Nat.add_right_comm]
      exact ih hrest
  | read on listed missing load _ ih =>
    cases before with
    | nil => exact on
    | cons first before =>
      obtain ⟨rfl, hrest⟩ := List.cons.inj hat
      rw [Registry.missing_cons_of_read listed missing, List.length_cons,
        ← Nat.add_assoc, Nat.add_right_comm, reading_cons, load]
      exact ih hrest
  | failed on =>
    cases before with
    | nil => exact on
    | cons first before => simp at hat

/-- A read that fails is the last, and its error is what the warm-up answers. -/
theorem error_of_fails (h : Warms session cancelled n r s considered rest outcome r' s')
    (hat : considered = before ++ name :: after) (fails : FailsAfter session r s before name e) :
    after = [] ∧ outcome = .error e := by
  induction h generalizing before with
  | ended | stopped => simp at hat
  | passed _ unlisted _ _ ih =>
    cases before with
    | nil =>
      obtain ⟨rfl, -⟩ := List.cons.inj hat
      exact absurd fails.listed unlisted
    | cons first before =>
      obtain ⟨rfl, hrest⟩ := List.cons.inj hat
      exact ih hrest ((FailsAfter.cons_settled (absurd · unlisted)).mp fails)
  | known _ loaded _ ih =>
    cases before with
    | nil =>
      obtain ⟨rfl, -⟩ := List.cons.inj hat
      exact absurd loaded fails.missing
    | cons first before =>
      obtain ⟨rfl, hrest⟩ := List.cons.inj hat
      obtain ⟨hlast, rfl⟩ := ih hrest ((FailsAfter.cons_settled fun _ => loaded).mp fails)
      exact ⟨hlast, rfl⟩
  | read _ listed missing load _ ih =>
    cases before with
    | nil =>
      obtain ⟨rfl, -⟩ := List.cons.inj hat
      have hload := fails.load
      rw [Registry.missing_nil, reading_nil, load] at hload
      cases hload
    | cons first before =>
      obtain ⟨rfl, hrest⟩ := List.cons.inj hat
      obtain ⟨hlast, rfl⟩ := ih hrest ((FailsAfter.cons_read listed missing load).mp fails)
      exact ⟨hlast, rfl⟩
  | failed _ _ _ load =>
    cases before with
    | nil =>
      obtain ⟨rfl, rfl⟩ := List.cons.inj hat
      have hload := fails.load
      rw [Registry.missing_nil, reading_nil, load] at hload
      cases hload
      exact ⟨rfl, rfl⟩
    | cons first before => simp at hat

/-- An error is that of the last name's read; what was read before it stays. -/
theorem fails_of_error (h : Warms session cancelled n r s considered rest outcome r' s')
    (herror : outcome = .error e) : ∃ before name, considered = before ++ [name] ∧
      FailsAfter session r s before name e ∧ r'.loaded = r.loaded ++ r.missing before := by
  induction h with
  | ended | stopped => cases herror
  | passed _ unlisted _ _ ih =>
    obtain ⟨before, name, rfl, fails, hloaded⟩ := ih herror
    refine ⟨_ :: before, name, rfl, (FailsAfter.cons_settled (absurd · unlisted)).mpr fails, ?_⟩
    rw [Registry.missing_cons_of_settled (absurd · unlisted), hloaded]
  | known _ loaded _ ih =>
    obtain ⟨before, name, rfl, fails, hloaded⟩ := ih (map_eq_error.mp herror)
    refine ⟨_ :: before, name, rfl, (FailsAfter.cons_settled fun _ => loaded).mpr fails, ?_⟩
    rw [Registry.missing_cons_of_settled (fun _ => loaded), hloaded]
  | read _ listed missing load _ ih =>
    obtain ⟨before, name, rfl, fails, hloaded⟩ := ih (map_eq_error.mp herror)
    refine ⟨_ :: before, name, rfl, (FailsAfter.cons_read listed missing load).mpr fails, ?_⟩
    rw [Registry.missing_cons_of_read listed missing, hloaded, Registry.loaded_insert,
      List.append_assoc, List.singleton_append]
  | failed _ listed missing load =>
    cases herror
    refine ⟨[], _, rfl, ⟨listed, missing, List.not_mem_nil, ?_⟩, by simp⟩
    rw [Registry.missing_nil, reading_nil, load]

end Warms

end warms

/-! ## A whole warm-up -/

/-- What a warm-up of these names does, of which it considered the first few, on a registry whose
device is in this state with nothing in its transcript. -/
structure Warmed {σ : Type} (session : Device.Session σ)
    (cancelled : Nat → σ × List Exchange → Bool) (names : List String) (r : Registry) (device : σ)
    (considered : List String) (outcome : Except Error (List String)) (r' : Registry)
    (s' : σ × List Exchange) : Prop where
  /-- The names considered are the first ones, up to the stop. -/
  isPrefix : considered <+: names
  /-- It stops at the end, where it is cancelled, or with an error, -/
  stops : considered = names ∨ cancelled considered.length s' = true ∨ ∃ e, outcome = .error e
  /-- was not cancelled before any name it considered, -/
  on : ∀ before name after, considered = before ++ name :: after →
    cancelled before.length (reading session.recorded (r.missing before) (device, [])) = false
  /-- and goes past no database that cannot be read. -/
  fails : ∀ before name after e, considered = before ++ name :: after →
    FailsAfter session.recorded r (device, []) before name e → after = [] ∧ outcome = .error e
  /-- If none fails it answers with what the catalog lists, all of it loaded. -/
  ok : ∀ found, outcome = .ok found → found = considered.filter r.lists ∧
    (∀ name ∈ found, name ∈ r'.loaded) ∧ r'.loaded = r.loaded ++ r.missing considered
  /-- If one fails it answers with that error, and what is listed before that name is loaded. -/
  error : ∀ e, outcome = .error e → (∀ name, e ≠ .unknownDatabase name) ∧
    ∃ before name, considered = before ++ [name] ∧
      FailsAfter session.recorded r (device, []) before name e ∧
      (∀ known ∈ before, r.lists known → known ∈ r'.loaded) ∧
      r'.loaded = r.loaded ++ r.missing before
  /-- Nothing in the registry is touched but that replicas are added. -/
  kept : r'.catalog = r.catalog ∧ r.replicas <+: r'.replicas
  /-- The device sees the missing databases read, in order, and nothing else; -/
  state_eq : s' = reading session.recorded (r.missing considered) (device, [])
  /-- each is read once, -/
  once : lookedUp s'.2 = r.missing considered ∧ (lookedUp s'.2).Nodup
  /-- and no other database. -/
  read : ∀ name ∈ lookedUp s'.2, name ∈ considered ∧ r.lists name ∧ name ∉ r.loaded

namespace FailsAfter

variable {σ : Type} {session : Device.Session σ} {r : Registry} {s : σ} {name other : String}
  {before : List String} {e : Error}

theorem ne_unknownDatabase (h : FailsAfter session r s before name e) :
    e ≠ .unknownDatabase other := by
  have hload := h.load
  rcases hrun : Replica.load session name (reading session (r.missing before) s) with ⟨answer, s₁⟩
  rw [hrun] at hload
  cases hload
  exact load_ne_unknownDatabase hrun

end FailsAfter

/-- What is listed among these names is loaded once the missing ones are. -/
theorem Registry.mem_loaded_append_missing {r : Registry} {names : List String} {name : String}
    (hname : name ∈ names) (hlist : r.lists name) : name ∈ r.loaded ++ r.missing names := by
  rw [List.mem_append, Registry.mem_missing]
  by_cases h : name ∈ r.loaded
  · exact .inl h
  · exact .inr ⟨hname, hlist, h⟩

/-- **Warming up.**  Whatever databases are asked for, whenever the warm-up is cancelled and
whichever reads the device refuses: it considers the names up to the cancellation or the first read
that fails, answers with those the catalog lists or with that read's error, leaves in the registry
everything that was listed before the stop, and reads no database twice and none after it. -/
theorem warmed {σ : Type} (session : Device.Session σ)
    (cancelled : Nat → σ × List Exchange → Bool) (names : List String) (r : Registry) (device : σ)
    (hr : r.Sound) :
    let (outcome, r', s') := warmUp session.recorded cancelled names r (device, [])
    ∃ considered, Warmed session cancelled names r device considered outcome r' s' := by
  obtain ⟨considered, rest, hnames, h⟩ :=
    warms_warmUpFrom session.recorded cancelled names 0 r (device, [])
  have hlooked : lookedUp (warmUpFrom session.recorded cancelled names 0 r (device, [])).2.2.2 =
      r.missing considered := by
    rw [h.state_eq, lookedUp_reading, Device.lookedUp_nil, List.nil_append]
  refine ⟨considered, ?_⟩
  constructor
  case isPrefix =>
    rw [hnames]
    exact List.prefix_append _ _
  case stops =>
    rcases h.stops with rfl | hoff | herror
    · exact .inl (by simp [hnames])
    · rw [Nat.zero_add] at hoff
      exact .inr (.inl hoff)
    · exact .inr (.inr herror)
  case on =>
    intro before name after hat
    have hon := h.on hat
    rwa [Nat.zero_add] at hon
  case fails => exact fun before name after e hat fails => h.error_of_fails hat fails
  case ok =>
    intro found hok
    have hfound := h.found_eq hr hok
    have hloaded := h.loaded_eq hok
    refine ⟨hfound, fun name hname => ?_, hloaded⟩
    rw [hfound, List.mem_filter] at hname
    exact hloaded ▸ Registry.mem_loaded_append_missing hname.1 hname.2
  case error =>
    intro e herror
    obtain ⟨before, name, hat, fails, hloaded⟩ := h.fails_of_error herror
    refine ⟨fun _ => fails.ne_unknownDatabase, before, name, hat, fails, ?_, hloaded⟩
    intro known hknown hlist
    exact hloaded ▸ Registry.mem_loaded_append_missing hknown hlist
  case kept => exact ⟨h.catalog_eq, h.replicas_prefix⟩
  case state_eq => exact h.state_eq
  case once => exact ⟨hlooked, hlooked ▸ Registry.nodup_missing considered⟩
  case read =>
    intro name hname
    rwa [hlooked, Registry.mem_missing] at hname

/-- One database is asked for twice, one is not listed, and one refuses its table. -/
theorem warmed_until_refused :
    let d : Device :=
      { databases := [{ name := "Memos" }, { name := "Tasks", refusingSlotTable := true },
          { name := "Journal" }] }
    let r : Registry := { catalog := [⟨"Memos", 0⟩, ⟨"Tasks", 0⟩, ⟨"Journal", 0⟩] }
    let names := ["Memos", "Calendar", "Memos", "Tasks", "Journal"]
    r.Sound ∧
      let (outcome, r', s') := warmUp Device.session.recorded (fun _ _ => false) names r (d, [])
      accepted outcome = false ∧ r'.loaded = ["Memos"] ∧ lookedUp s'.2 = ["Memos", "Tasks"] ∧
      ∃ considered,
        Warmed Device.session (fun _ _ => false) names r d considered outcome r' s' := by
  intro d r names
  have hr : r.Sound := Registry.sound_of_catalog _
  exact ⟨hr, by decide +kernel, by decide +kernel, by decide +kernel,
    warmed Device.session (fun _ _ => false) names r d hr⟩

end Replica

end Palmtop
