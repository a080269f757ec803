import Palmtop.Proofs.Device.Hearing
import Palmtop.Proofs.Replica.Addressing
import Palmtop.Proofs.Replica.Interleaving

/-! # Edits that are refused

An edit begins with looks, if it needs a slot, and then issues its first mutation.  As long as that
has not gone through nothing has been touched (`Goes`), neither on the device nor among the entries;
and behind it no error says that the database is read-only or that the record is gone.  For this
nothing is to be known about the replica.

That a read-only database is reported as such takes more: the look has to find a slot first.  It
does for every entry the replica lists, since between the edits of the replica only faults are
switched, and so the replica stays in step with its database (`turns_inStep`).
-/
namespace Palmtop

namespace Device
variable {name : String} {id i : DatabaseId} {d d' : Device} {c : Command} {db : Database}

/-- A change of settings alone: every database keeps its name and its records. -/
def Switches (change : Device → Device) : Prop := ∀ d, (change d).holdings = d.holdings

theorem recordsAt_of_holdings (h : d'.holdings = d.holdings) (id : DatabaseId) :
    recordsAt id d' = recordsAt id d := by
  have hat (d : Device) : recordsAt id d =
      ((if id = 0 then none else d.holdings[id.toNat - 1]?).map (·.2)).getD Slots.empty := by
    rw [recordsAt, database?, holdings]
    split
    · rfl
    · rw [List.getElem?_map, Option.map_map]
      rfl
  rw [hat, hat, h]

theorem Serves.observed (h : d.Serves name id) (hd : d.Observed d') : d'.Serves name id := by
  obtain ⟨⟨h₁, h₂, h₃, h₄⟩, ⟨h₅, h₆, h₇⟩, hname⟩ := h
  refine ⟨?_, ?_, hd.database? ▸ hname⟩
  · obtain ⟨_, rfl⟩ := hd
    exact ⟨h₁, h₂, h₃, h₄⟩
  · obtain ⟨_, rfl⟩ := hd
    exact ⟨h₅, h₆, h₇⟩

/-- A command that was refused or only looks touches nothing. -/
theorem observed_of_guarded {answer : Except Error c.Answer}
    (h : (guarded name id).run c d = (answer, d'))
    (hc : accepted answer = false ∨ c.isMutation = false) : d.Observed d' := by
  simp only [guarded] at h
  split at h
  · rw [run_eq] at h
    obtain ⟨hanswer, rfl⟩ := Prod.mk.inj h
    have hsame : (d.execute c).2 = d := by
      rcases hc with hrefused | hlooks
      · cases answer with
        | ok a => cases hrefused
        | error e => exact execute_refused (Prod.ext hanswer rfl)
      · exact execute_of_not_isMutation hlooks
    rw [hsame]
    exact (observed_self d).logged _
  · obtain ⟨-, rfl⟩ := Prod.mk.inj h
    exact observed_self d

/-- The database with this id, if there is one, takes writes as far as its being read-only goes. -/
def Writable (id : DatabaseId) (d : Device) : Prop :=
  ∀ db, d.database? id = some db → db.readOnly = false

theorem Writable.observed (h : d.Writable i) (hd : d.Observed d') : d'.Writable i :=
  fun db hdb => h db (hd.database? ▸ hdb)

/-- What a guarded device refused is not connected, or was refused by the device. -/
theorem of_guarded_error {e : Error} (h : (guarded name id).run c d = (.error e, d')) :
    e = .notConnected ∨ (d.execute c).1 = .error e := by
  simp only [guarded] at h
  split at h
  · rw [run_eq] at h
    exact Or.inr (Prod.mk.inj h).1
  · exact Or.inl (Except.error.inj (Prod.mk.inj h).1).symm

theorem reach_not_readOnly {e : Error} (h : d.reach i = .error e) : e.isReadOnly = false := by
  unfold reach at h
  repeat' split at h
  all_goals cases h <;> rfl

/-- No slot table is refused for being read-only. -/
theorem slotTable_not_readOnly {e : Error} (h : (guarded name id).slotTable i d = (.error e, d')) :
    e.isReadOnly = false := by
  rcases of_guarded_error h with rfl | hanswer
  · rfl
  simp only [execute] at hanswer
  split at hanswer
  · exact Except.error.inj hanswer ▸ reach_not_readOnly ‹_›
  · split at hanswer
    · exact Except.error.inj hanswer ▸ rfl
    · cases hanswer

/-- A database that gives up a record is writable, and stays so. -/
theorem writable_of_deleteRecord {slot : Slot}
    (h : (guarded name id).deleteRecord i slot d = (.ok (), d')) : d'.Writable i := by
  obtain ⟨after, e, -, hrun, rfl⟩ := of_guarded h
  simp only [execute] at hrun
  split at hrun
  · cases hrun
  rename_i db hreach
  split at hrun
  · cases hrun
  rename_i hwrites
  split at hrun
  · cases hrun
  obtain ⟨-, rfl⟩ := Prod.mk.inj hrun
  intro new hnew
  rw [database?_logged, database?_mutate (database?_of_reach hreach), if_pos rfl] at hnew
  have hbare : new.bare = db.bare := by
    rw [← Option.some.inj hnew, bare_stored]
    rfl
  have hsame : new.bare.readOnly = db.bare.readOnly := congrArg _ hbare
  have hsame : new.readOnly = db.readOnly := hsame
  rw [hsame]
  unfold Database.writeRefusal at hwrites
  split at hwrites
  · cases hwrites
  · exact eq_false_of_ne_true ‹_›

/-- A writable database refuses no record for being read-only. -/
theorem addRecord_not_readOnly {r : Record} {e : Error} (hd : d.Writable i)
    (h : (guarded name id).addRecord i r d = (.error e, d')) : e.isReadOnly = false := by
  rcases of_guarded_error h with rfl | hanswer
  · rfl
  simp only [execute] at hanswer
  split at hanswer
  · exact Except.error.inj hanswer ▸ reach_not_readOnly ‹_›
  rename_i db hreach
  have hwritable := hd db (database?_of_reach hreach)
  split at hanswer
  · rename_i refusal hrefusal
    rw [← Except.error.inj hanswer]
    simp only [Database.addRefusal, Database.writeRefusal, hwritable, Option.or_eq_some_iff,
      Bool.false_eq_true, if_false] at hrefusal
    rcases hrefusal with hfails | ⟨-, hfails⟩
    · split at hfails <;> cases hfails
      rfl
    · repeat' split at hfails
      all_goals cases hfails <;> rfl
  · cases hanswer

/-- The session serves the database, and the device can be reached and has it read-only. -/
structure Shielded (name : String) (id : DatabaseId) (d : Device) : Prop where
  serves : d.Serves name id
  linked : d.linkBroken = false
  readOnly : (d.database? id).map (·.readOnly) = some true

instance (name : String) (id : DatabaseId) (d : Device) : Decidable (d.Shielded name id) :=
  decidable_of_iff (d.Serves name id ∧ d.linkBroken = false ∧
    (d.database? id).map (·.readOnly) = some true)
    ⟨fun h => ⟨h.1, h.2.1, h.2.2⟩, fun h => ⟨h.1, h.2, h.3⟩⟩

theorem Shielded.observed (h : d.Shielded name id) (hd : d.Observed d') : d'.Shielded name id where
  serves := h.serves.observed hd
  linked := by
    obtain ⟨_, rfl⟩ := hd
    exact h.linked
  readOnly := hd.database? ▸ h.readOnly

theorem Shielded.database? (h : d.Shielded name id) :
    ∃ db, d.database? id = some db ∧ db.name = name ∧ db.readOnly = true := by
  obtain ⟨db, hdb, hreadOnly⟩ := Option.map_eq_some_iff.mp h.readOnly
  have hname := h.serves.2.2
  rw [hdb] at hname
  exact ⟨db, hdb, Option.some.inj hname, hreadOnly⟩

/-- A read-only database refuses every mutation, and says so. -/
theorem Shielded.refuses (h : d.Shielded name id) (hmutation : c.isMutation = true)
    (hc : c.database? = some id) :
    ∃ d', (guarded name id).run c d = (.error (.readOnly name), d') := by
  obtain ⟨db, hdb, rfl, hreadOnly⟩ := h.database?
  have hwrite : db.writeRefusal = some (.readOnly db.name) := by
    rw [Database.writeRefusal, hreadOnly, if_pos rfl]
  have hrefusal : db.refusal c = some (.readOnly db.name) := by
    cases c with
    | addRecord _ _ => rw [Database.refusal, Database.growthRefusal, hwrite, Option.some_or]
    | writeRecord _ _ _ => exact hwrite
    | deleteRecord _ _ => exact hwrite
    | clearDatabase _ => exact hwrite
    | catalog => cases hmutation
    | databaseId _ => cases hmutation
    | slotTable _ => cases hmutation
    | readRecord _ _ => cases hmutation
  simp only [guarded, if_pos h.serves, run_eq, execute_of_refusal h.linked hc hdb hrefusal]
  exact ⟨_, rfl⟩

/-- Being read-only does not keep a database from handing out its slot table. -/
theorem Shielded.slotTable (h : d.Shielded name id)
    (hopen : (d.database? id).map (·.refusingSlotTable) = some false) :
    ∃ table d', (guarded name id).slotTable id d = (.ok table, d') := by
  obtain ⟨db, hdb, hopen⟩ := Option.map_eq_some_iff.mp hopen
  have htable : db.tableRefusal = none := by rw [Database.tableRefusal, hopen]; rfl
  simp only [Session.slotTable, guarded, if_pos h.serves, run_eq, slotTable_eq h.linked hdb htable]
  exact ⟨_, _, rfl⟩

end Device

namespace Replica
open Device

variable {name : String} {id : DatabaseId} {r r' : Replica} {s s' : Device × List Exchange}
  {log : List Exchange}

/-! ## Refusals before the first mutation -/

/-- Among these exchanges, newest first, one was refused that no mutation had come before. -/
def RefusedFirst (log : List Exchange) : Prop :=
  ∃ newer x older, log = newer ++ x :: older ∧ x.accepted = false ∧
    ∀ y ∈ older, y.command.isMutation = false

/-- Among these exchanges, newest first, is a mutation that went through, and nothing was refused
before it. -/
def Begun (log : List Exchange) : Prop :=
  ∃ newer x older, log = newer ++ x :: older ∧ x.accepted = true ∧
    x.command.isMutation = true ∧ ∀ y ∈ older, y.accepted = true

theorem Begun.not_refusedFirst (h : Begun log) : ¬ RefusedFirst log := by
  obtain ⟨newer, x, older, rfl, hx, hmutation, hlooks⟩ := h
  rintro ⟨newer', y, older', hsplit, hy, hbefore⟩
  -- whichever of the two came first excludes the other
  rcases List.append_eq_append_iff.mp hsplit with
    ⟨_ | ⟨z, between⟩, -, h⟩ | ⟨_ | ⟨z, between⟩, -, h⟩
  · obtain ⟨rfl, -⟩ := List.cons.inj h
    exact absurd hx (by rw [hy]; exact Bool.false_ne_true)
  · obtain ⟨-, rfl⟩ := List.cons.inj h
    have haccepted := hlooks y (List.mem_append_right _ List.mem_cons_self)
    exact absurd haccepted (by rw [hy]; exact Bool.false_ne_true)
  · obtain ⟨rfl, -⟩ := List.cons.inj h
    exact absurd hx (by rw [hy]; exact Bool.false_ne_true)
  · obtain ⟨-, rfl⟩ := List.cons.inj h
    have hlook := hbefore x (List.mem_append_right _ List.mem_cons_self)
    exact absurd hmutation (by rw [hlook]; exact Bool.false_ne_true)

/-- The ids and records of the entries, in their order. -/
def contents (r : Replica) : List (UniqueId × Record) :=
  r.entries.map fun e => (e.uniqueId, e.record)

/-- Neither the device, but for its transcript, nor the records of the replica have changed. -/
structure Untouched (r : Replica) (s : Device × List Exchange)
    (after : Replica × Device × List Exchange) : Prop where
  device : s.1.Observed after.2.1
  contents : after.1.contents = r.contents

theorem Untouched.trans {after : Replica × Device × List Exchange} (h : Untouched r s (r', s'))
    (h' : Untouched r' s' after) : Untouched r s after :=
  ⟨h.device.trans h'.device, h'.contents.trans h.contents⟩

/-- The errors that tell of a mutation not begun. -/
def Error.isEarly : Error → Bool
  | .readOnly _ | .staleEntry _ => true
  | _ => false

theorem Error.isEarly_ofDevice (e : Device.Error) : (ofDevice e).isEarly = e.isReadOnly := by
  cases e <;> rfl

/-- How an edit goes, or what is left of one: it touches nothing, or its first mutation goes through
with nothing refused before, and then the error that it may end with is not an early one. -/
structure Goes {α : Type} (r : Replica) (s : Device × List Exchange)
    (run : Except Error α × Replica × Device × List Exchange) (log : List Exchange) : Prop where
  transcript : run.2.2.2 = log ++ s.2
  touches : Untouched r s run.2 ∨ Begun log ∧ ∀ e, run.1 = .error e → e.isEarly = false

section goes
variable {α : Type} {run : Except Error α × Replica × Device × List Exchange}

/-- What comes behind looks that were accepted. -/
theorem Goes.after_looks {looks : List Exchange} (h : Goes r' s' run log)
    (hbefore : Untouched r s (r', s')) (htranscript : s'.2 = looks ++ s.2)
    (haccepted : ∀ x ∈ looks, x.accepted = true) : Goes r s run (log ++ looks) where
  transcript := by rw [h.transcript, htranscript, List.append_assoc]
  touches := by
    rcases h.touches with huntouched | ⟨⟨newer, x, older, rfl, hx, hmutation, hlooks⟩, herror⟩
    · exact Or.inl (hbefore.trans huntouched)
    · refine Or.inr ⟨⟨newer, x, older ++ looks, by simp, hx, hmutation, fun y hy => ?_⟩, herror⟩
      exact (List.mem_append.mp hy).elim (hlooks y) (haccepted y)

/-- A command that was refused ends an edit untouched. -/
theorem Goes.refused {c : Command} {e : Device.Error} {e' : Error}
    (hrun : (guarded name id).recorded.run c s = (.error e, s')) (hr : r'.contents = r.contents) :
    Goes r s ((.error e' : Except Error α), r', s') [⟨c, false⟩] where
  transcript := (of_recorded hrun).2
  touches := Or.inl ⟨observed_of_guarded (of_recorded hrun).1 (Or.inl rfl), hr⟩

/-- Behind a first mutation that went through, an edit may do anything but end with an early
error. -/
theorem Goes.begun {c : Command} {answer : c.Answer} {newer : List Exchange}
    (hrun : (guarded name id).recorded.run c s = (.ok answer, s'))
    (hmutation : c.isMutation = true) (hlog : run.2.2.2 = newer ++ s'.2)
    (herror : ∀ e, run.1 = .error e → e.isEarly = false) :
    Goes r s run (newer ++ [⟨c, true⟩]) where
  transcript := by
    rw [hlog, (of_recorded hrun).2, List.append_assoc]
    rfl
  touches := Or.inr ⟨⟨newer, _, [], rfl, rfl, hmutation, nofun⟩, herror⟩

end goes

/-! ## Edits -/

/-- Fetching the table touches nothing, and fails with no early error. -/
theorem refresh_goes {answer : Except Error Unit}
    (h : r.refresh (guarded name id).recorded s = (answer, r', s')) :
    Untouched r s (r', s') ∧ s'.2 = [⟨.slotTable r.id, accepted answer⟩] ++ s.2 ∧ r'.id = r.id ∧
      ∀ e, answer = .error e → e.isEarly = false := by
  unfold refresh at h
  split at h
  · rename_i e s₁ hrun
    cases h
    obtain ⟨hrun, hlog⟩ := of_recorded hrun
    refine ⟨⟨observed_of_guarded hrun (Or.inl rfl), rfl⟩, hlog, rfl, fun e' he => ?_⟩
    rw [← Except.error.inj he, Error.isEarly_ofDevice]
    exact slotTable_not_readOnly hrun
  · rename_i fresh s₁ hrun
    cases h
    obtain ⟨hrun, hlog⟩ := of_recorded hrun
    refine ⟨⟨observed_of_guarded hrun (Or.inr rfl), ?_⟩, hlog, rfl, nofun⟩
    simp [contents, Entry.uniqueId, Function.comp_def]

theorem settle_goes {u : UniqueId} {answer : Except Error Settled}
    (h : r.settle (guarded name id).recorded u s = (answer, r', s')) :
    (∃ x, s'.2 = [x] ++ s.2) ∧ (∀ e, answer = .error e → e.isEarly = false) ∧
      ∀ settled entry, answer = .ok settled →
        ∀ e, settled.answer entry = .error e → e.isEarly = false := by
  unfold settle at h
  split at h
  · rename_i e r₁ s₁ hrun
    obtain ⟨-, hlog, -, herror⟩ := refresh_goes hrun
    cases h
    refine ⟨⟨_, hlog⟩, nofun, fun settled entry hsettled e' he' => ?_⟩
    rw [← Except.ok.inj hsettled] at he'
    exact Except.error.inj he' ▸ herror e rfl
  · rename_i r₁ s₁ hrun
    obtain ⟨-, hlog, -, -⟩ := refresh_goes hrun
    split at h
    · cases h
      refine ⟨⟨_, hlog⟩, nofun, fun settled entry hsettled e' he' => ?_⟩
      rw [← Except.ok.inj hsettled] at he'
      cases he'
    · cases h
      exact ⟨⟨_, hlog⟩, fun e he => Except.error.inj he ▸ rfl, nofun⟩

/-- Looking for a slot touches nothing, and is accepted if it finds one. -/
theorem currentSlot_goes {u : UniqueId} {answer : Except Error Slot}
    (h : r.currentSlot (guarded name id).recorded u s = (answer, r', s')) :
    ∃ looks, Untouched r s (r', s') ∧ s'.2 = looks ++ s.2 ∧
      (accepted answer = true → ∀ x ∈ looks, x.accepted = true) := by
  simp only [currentSlot] at h
  split at h
  · split at h
    · rename_i hrun
      obtain ⟨huntouched, hlog, -, -⟩ := refresh_goes hrun
      cases h
      exact ⟨_, huntouched, hlog, fun haccepted => by cases haccepted⟩
    · rename_i hrun
      obtain ⟨huntouched, hlog, -, -⟩ := refresh_goes hrun
      split at h <;>
      · cases h
        exact ⟨_, huntouched, hlog, fun _ x hx => List.mem_singleton.mp hx ▸ rfl⟩
  · split at h <;>
    · cases h
      exact ⟨[], ⟨observed_self _, rfl⟩, rfl, fun _ _ hx => absurd hx List.not_mem_nil⟩

variable (name id) in
theorem add_goes (r : Replica) (s : Device × List Exchange) (content : Record) :
    ∃ log, Goes r s (r.add (guarded name id).recorded content s) log := by
  simp only [add]
  rcases hadd : (guarded name id).recorded.addRecord r.id _ s with ⟨e | _, s₁⟩
  · exact ⟨_, .refused hadd rfl⟩
  · simp only
    rcases hsettle : settle (guarded name id).recorded _ _ s₁ with ⟨e | settled, r₂, s₂⟩
    · obtain ⟨⟨x, hlog⟩, herror, -⟩ := settle_goes hsettle
      exact ⟨_, .begun hadd rfl hlog fun e he => herror e (by simpa using he)⟩
    · obtain ⟨⟨x, hlog⟩, -, hanswer⟩ := settle_goes hsettle
      exact ⟨_, .begun hadd rfl hlog fun e he => hanswer settled _ rfl e he⟩

variable (name id) in
theorem overwriteInPlace_goes (r : Replica) (s : Device × List Exchange) (slot : Slot)
    (x : Record) :
    ∃ log, Goes r s (r.overwriteInPlace (guarded name id).recorded slot x s) log := by
  simp only [overwriteInPlace]
  rcases hwrite : (guarded name id).recorded.writeRecord r.id slot x s with ⟨e | _, s₁⟩
  · exact ⟨_, .refused hwrite rfl⟩
  · simp only
    rcases hsettle : r.settle (guarded name id).recorded x.uniqueId s₁ with ⟨e | settled, r₂, s₂⟩
    · obtain ⟨⟨y, hlog⟩, herror, -⟩ := settle_goes hsettle
      exact ⟨_, .begun hwrite rfl hlog fun e he => herror e (by simpa using he)⟩
    · obtain ⟨⟨y, hlog⟩, -, hanswer⟩ := settle_goes hsettle
      exact ⟨_, .begun hwrite rfl hlog fun e he => hanswer settled _ rfl e he⟩

variable (name id) in
theorem overwriteByReplacing_goes (r : Replica) (s : Device × List Exchange) (slot : Slot)
    (x : Record) :
    ∃ log, Goes r s (r.overwriteByReplacing (guarded name id).recorded slot x s) log := by
  simp only [overwriteByReplacing]
  rcases hdelete : (guarded name id).recorded.deleteRecord r.id slot s with ⟨e | _, s₁⟩
  · exact ⟨_, .refused hdelete rfl⟩
  -- the database that gave up the old record does not turn read-only before the new one comes
  have hwritable : s₁.1.Writable r.id := writable_of_deleteRecord (of_recorded hdelete).1
  simp only
  rcases hrefresh : refresh (guarded name id).recorded _ s₁ with ⟨e | _, r₂, s₂⟩
  · obtain ⟨-, hlog, -, herror⟩ := refresh_goes hrefresh
    exact ⟨_, .begun hdelete rfl hlog fun e he => herror e (by simpa using he)⟩
  obtain ⟨huntouched, hlog₂, hid, -⟩ := refresh_goes hrefresh
  have hid : r₂.id = r.id := hid
  simp only
  rcases hadd : (guarded name id).recorded.addRecord r₂.id x s₂ with ⟨e | _, s₃⟩
  · obtain ⟨hrun, hlog₃⟩ := of_recorded hadd
    obtain ⟨newer, hlogged⟩ : ∃ newer, s₃.2 = newer ++ s₁.2 := ⟨[_, _], by rw [hlog₃, hlog₂]; rfl⟩
    refine ⟨_, .begun hdelete rfl hlogged fun e' he => ?_⟩
    rw [← Except.error.inj he, Error.isEarly_ofDevice]
    exact addRecord_not_readOnly (hid ▸ hwritable.observed huntouched.device) hrun
  obtain ⟨-, hlog₃⟩ := of_recorded hadd
  simp only
  rcases hsettle : r₂.settle (guarded name id).recorded x.uniqueId s₃ with ⟨e | settled, r₄, s₄⟩
  · obtain ⟨⟨y, hlog⟩, herror, -⟩ := settle_goes hsettle
    obtain ⟨newer, hlogged⟩ : ∃ newer, s₄.2 = newer ++ s₁.2 :=
      ⟨[_, _, _], by rw [hlog, hlog₃, hlog₂]; rfl⟩
    exact ⟨_, .begun hdelete rfl hlogged fun e he => herror e (by simpa using he)⟩
  · obtain ⟨⟨y, hlog⟩, -, hanswer⟩ := settle_goes hsettle
    obtain ⟨newer, hlogged⟩ : ∃ newer, s₄.2 = newer ++ s₁.2 :=
      ⟨[_, _, _], by rw [hlog, hlog₃, hlog₂]; rfl⟩
    exact ⟨_, .begun hdelete rfl hlogged fun e he => hanswer settled _ rfl e he⟩

variable (name id) in
theorem overwrite_goes (r : Replica) (s : Device × List Exchange) (entry : Entry)
    (content : Record) :
    ∃ log, Goes r s (r.overwrite (guarded name id).recorded entry content s) log := by
  simp only [overwrite]
  rcases hlook : r.currentSlot (guarded name id).recorded entry.uniqueId s with ⟨e | slot, r₁, s₁⟩
  · obtain ⟨looks, huntouched, hlog, -⟩ := currentSlot_goes hlook
    exact ⟨looks, hlog, Or.inl huntouched⟩
  obtain ⟨looks, huntouched, hlog, haccepted⟩ := currentSlot_goes hlook
  simp only
  split
  · obtain ⟨log, hgoes⟩ := overwriteInPlace_goes name id r₁ s₁ slot
      (r.ownRecord entry.uniqueId content)
    exact ⟨_, hgoes.after_looks huntouched hlog (haccepted rfl)⟩
  · obtain ⟨log, hgoes⟩ := overwriteByReplacing_goes name id r₁ s₁ slot
      (r.ownRecord entry.uniqueId content)
    exact ⟨_, hgoes.after_looks huntouched hlog (haccepted rfl)⟩

variable (name id) in
theorem delete_goes (r : Replica) (s : Device × List Exchange) (entry : Entry) :
    ∃ log, Goes r s (r.delete (guarded name id).recorded entry s) log := by
  simp only [delete]
  rcases hlook : r.currentSlot (guarded name id).recorded entry.uniqueId s with ⟨e | slot, r₁, s₁⟩
  · obtain ⟨looks, huntouched, hlog, -⟩ := currentSlot_goes hlook
    exact ⟨looks, hlog, Or.inl huntouched⟩
  obtain ⟨looks, huntouched, hlog, haccepted⟩ := currentSlot_goes hlook
  suffices hrest : ∃ log, Goes r₁ s₁ _ log by
    obtain ⟨log, hgoes⟩ := hrest
    exact ⟨_, hgoes.after_looks huntouched hlog (haccepted rfl)⟩
  simp only
  rcases hdelete : (guarded name id).recorded.deleteRecord r₁.id slot s₁ with ⟨e | _, s₂⟩
  · exact ⟨_, .refused hdelete rfl⟩
  · simp only
    generalize ({ r₁ with entries := _ } : Replica) = r₂
    rcases hrefresh : r₂.refresh (guarded name id).recorded s₂ with ⟨answer, r₃, s₃⟩
    obtain ⟨-, hlog₃, -, herror⟩ := refresh_goes hrefresh
    exact ⟨_, .begun hdelete rfl hlog₃ herror⟩

/-- The answer to an edit says of it what the answer to its run does. -/
theorem Goes.map {α β : Type} {run : Except Error α × Replica × Device × List Exchange}
    (h : Goes r s run log) (f : α → β) : Goes r s (run.1.map f, run.2) log where
  transcript := h.transcript
  touches := h.touches.imp_right fun ⟨hbegun, herror⟩ => by
    refine ⟨hbegun, fun e he => herror e ?_⟩
    obtain ⟨answer, after⟩ := run
    cases answer with
    | error e' => exact congrArg _ (Except.error.inj he)
    | ok a => cases he

variable (name id) in
theorem edit_goes (r : Replica) (s : Device × List Exchange) (e : Edit) :
    ∃ log, Goes r s (r.edit (guarded name id).recorded e s) log := by
  cases e with
  | add content =>
    obtain ⟨log, hgoes⟩ := add_goes name id r s content
    exact ⟨log, hgoes.map some⟩
  | overwrite entry content =>
    obtain ⟨log, hgoes⟩ := overwrite_goes name id r s entry content
    exact ⟨log, hgoes.map some⟩
  | delete entry =>
    obtain ⟨log, hgoes⟩ := delete_goes name id r s entry
    exact ⟨log, hgoes.map fun _ => none⟩

/-! ## A read-only database -/

/-- A replica in step with its database finds a slot for every id it lists, if it can fetch the
table should it be stale. -/
theorem currentSlot_listed (h : InStep name id (recordsAt id) r s) (hs : s.1.Shielded name id)
    {u : UniqueId} (hu : u ∈ r.entries.map (·.uniqueId))
    (hopen : r.stale = true → (s.1.database? id).map (·.refusingSlotTable) = some false) :
    ∃ slot r' s', r.currentSlot (guarded name id).recorded u s = (.ok slot, r', s') ∧
      r'.id = id ∧ s'.1.Shielded name id := by
  -- a record of the id is on the device, and so no look can miss it
  have found {r₁ : Replica} {s₁ : Device × List Exchange}
      (hin : InStep name id (recordsAt id) r₁ s₁) (hfresh : r₁.stale = false)
      (hv : recordsAt id s₁.1 = recordsAt id s.1) :
      ∃ slot, r₁.currentSlot (guarded name id).recorded u s₁ = (.ok slot, r₁, s₁) := by
    obtain ⟨answer, hrun, hlocated⟩ := hin.located (guarded name id) hfresh u
    cases hlocated with
    | found => exact ⟨_, hrun⟩
    | missing hgone =>
      refine absurd ?_ hgone
      obtain ⟨e, he, rfl⟩ := List.mem_map.mp hu
      rw [hv]
      exact List.mem_map_of_mem (h.covers.complete.subset (List.mem_map_of_mem he))
  cases hstale : r.stale with
  | false =>
    obtain ⟨slot, hrun⟩ := found h hstale rfl
    exact ⟨slot, r, s, hrun, h.covers.sameId, hs⟩
  | true =>
    obtain rfl := h.covers.sameId
    obtain ⟨fresh, d', hrun⟩ := hs.slotTable (hopen hstale)
    rcases hrefresh : r.refresh (guarded name r.id).recorded s with ⟨answer, r₁, s₁⟩
    obtain ⟨huntouched, -, -, -⟩ := refresh_goes hrefresh
    rcases refresh_cases (hosts_guarded name r.id) rfl s with
      ⟨e, s₂, hfails, -, -⟩ | ⟨table, s₂, hfetched, hv, ht⟩
    · simp only [refresh, Session.slotTable, run_recorded] at hfails
      simp only [Session.slotTable] at hrun
      rw [hrun] at hfails
      cases hfails
    · obtain ⟨-, h₁⟩ := Prod.mk.inj (hrefresh.symm.trans hfetched)
      obtain ⟨rfl, rfl⟩ := Prod.mk.inj h₁
      obtain ⟨slot, hlook⟩ := found ((hv ▸ h.covers).moved ht) rfl hv
      refine ⟨slot, r.moved table, s₁, ?_, rfl, hs.observed huntouched.device⟩
      rw [← hlook]
      simp [currentSlot, hstale, hfetched, moved]

/-- The first mutation of an edit is refused by a read-only database. -/
theorem shielded_refuses (hs : s.1.Shielded name id) {c : Command} (hmutation : c.isMutation = true)
    (hc : c.database? = some id) :
    ∃ s', (guarded name id).recorded.run c s = (.error (.readOnly name), s') := by
  obtain ⟨d', hrun⟩ := hs.refuses hmutation hc
  exact ⟨_, by rw [run_recorded, hrun]⟩

theorem edit_shielded (h : InStep name id (recordsAt id) r s) (hs : s.1.Shielded name id) (e : Edit)
    (hlisted : ∀ entry, e.subject? = some entry → entry.uniqueId ∈ r.entries.map (·.uniqueId) ∧
      (r.stale = true → (s.1.database? id).map (·.refusingSlotTable) = some false)) :
    (r.edit (guarded name id).recorded e s).1 = .error (.readOnly name) := by
  cases e with
  | add content =>
    obtain rfl := h.covers.sameId
    obtain ⟨s', hrun⟩ := shielded_refuses hs
      (c := .addRecord r.id (ownRecord { r with table := r.table.allocate.2 }
        r.table.allocate.1 content)) rfl rfl
    simp only [edit, add, Session.addRecord, hrun]
    rfl
  | overwrite entry content =>
    obtain ⟨hu, hopen⟩ := hlisted entry rfl
    obtain ⟨slot, r₁, s₁, hlook, rfl, hs₁⟩ := currentSlot_listed h hs hu hopen
    simp only [edit, overwrite, hlook]
    split
    · obtain ⟨s', hrun⟩ := shielded_refuses hs₁
        (c := .writeRecord r₁.id slot (r.ownRecord entry.uniqueId content)) rfl rfl
      simp only [overwriteInPlace, Session.writeRecord, hrun]
      rfl
    · obtain ⟨s', hrun⟩ := shielded_refuses hs₁ (c := .deleteRecord r₁.id slot) rfl rfl
      simp only [overwriteByReplacing, Session.deleteRecord, hrun]
      rfl
  | delete entry =>
    obtain ⟨hu, hopen⟩ := hlisted entry rfl
    obtain ⟨slot, r₁, s₁, hlook, rfl, hs₁⟩ := currentSlot_listed h hs hu hopen
    obtain ⟨s', hrun⟩ := shielded_refuses hs₁ (c := .deleteRecord r₁.id slot) rfl rfl
    simp only [edit, delete, hlook, Session.deleteRecord, hrun]
    rfl

/-! ## Edits among switched faults -/

/-- A replica stays in step with its database as long as nobody else changes the records. -/
theorem turns_inStep {σ : Type} {session : Session σ} {view : σ → Slots Record}
    (hosts : Hosts session name id view) {w : Replica × σ × List Exchange}
    (h : InStep name id view w.1 w.2) (history : List (Turn σ))
    (keeps : ∀ change, Turn.foreign change ∈ history → ∀ s, view (change s) = view s) :
    InStep name id view (turns session w history).1 (turns session w history).2 := by
  induction history using List.reverseRecOn with
  | nil => exact h
  | append_singleton history t ih =>
    have hbefore := ih fun change hmem => keeps change (List.mem_append_left _ hmem)
    rw [turns_snoc]
    cases t with
    | own e =>
      obtain ⟨answer, r', s', hrun, hin⟩ := edit_inStep hosts hbefore e
      rw [turn, hrun]
      exact hin
    | foreign change =>
      have hv := keeps change (List.mem_append_right _ List.mem_cons_self)
        (turns session w history).2.1
      exact ⟨hv ▸ hbefore.covers, hv ▸ hbefore.table, hv ▸ hbefore.slots, hbefore.fetched⟩

/-- A database that could be loaded has no id twice. -/
theorem load_distinct {d : Device} {s₁ : Device × List Exchange}
    (loaded : load (guarded name id).recorded name (d, []) = (.ok r, s₁)) :
    ((recordsAt id d).values.map (·.uniqueId)).Nodup := by
  unfold load at loaded
  split at loaded
  · cases loaded
  rename_i hrun
  obtain ⟨-, -, ⟨hproper, -, hname⟩, -, -⟩ := of_guarded (of_recorded hrun).1
  obtain ⟨db, hdb, -⟩ := Option.map_eq_some_iff.mp hname
  rw [recordsAt_of_database? hdb]
  exact hproper.uniqueIds db (database?_mem hdb)

/-- **A refused edit changes nothing.**  A replica has been loaded, and behind that it was edited
and the faults of the device switched, in any order.  If another edit answers that its database is
read-only or that its record is gone, or one of its commands is refused before it has issued a
mutation, or its first mutation is, then the device and the ids and records of the replica are as
before.  On a read-only database that can be reached, every addition and every edit of an entry
that is listed answers that the database is read-only, if the table can be fetched where the
replica is stale. -/
theorem edit_refused {d : Device} {s₁ : Device × List Exchange}
    (loaded : load (guarded name id).recorded name (d, []) = (.ok r, s₁))
    (history : List (Turn Device))
    (switches : ∀ change, Turn.foreign change ∈ history → Switches change) (e : Edit) :
    let (r', s') := turns (guarded name id) (r, s₁) history
    let (answer, after) := r'.edit (guarded name id).recorded e s'
    (∃ log, after.2.2 = log ++ s'.2 ∧
      (RefusedFirst log ∨ (∃ other, answer = .error (.readOnly other)) ∨
          (∃ u, answer = .error (.staleEntry u)) →
        Untouched r' s' after)) ∧
    (s'.1.Shielded name id →
      (∀ entry, e.subject? = some entry → entry.uniqueId ∈ r'.entries.map (·.uniqueId) ∧
        (r'.stale = true → (s'.1.database? id).map (·.refusingSlotTable) = some false)) →
      answer = .error (.readOnly name)) := by
  have hloaded := load_inStep (s := (d, [])) (hosts_guarded name id) (load_distinct loaded) loaded
  have hin := turns_inStep (w := (r, s₁)) (hosts_guarded name id) hloaded history
    fun change hmem d => recordsAt_of_holdings (switches change hmem d) id
  rcases hturns : turns (guarded name id) (r, s₁) history with ⟨r', s'⟩
  rw [hturns] at hin
  obtain ⟨log, htranscript, htouches⟩ := edit_goes name id r' s' e
  refine ⟨⟨log, htranscript, fun hrefused => ?_⟩,
    fun hshielded => edit_shielded hin hshielded e⟩
  refine htouches.resolve_right fun ⟨hbegun, herror⟩ => ?_
  rcases hrefused with hfirst | ⟨other, hanswer⟩ | ⟨u, hanswer⟩
  · exact hbegun.not_refusedFirst hfirst
  · cases herror _ hanswer
  · cases herror _ hanswer

/-- Behind an addition that could not fetch the table the database becomes read-only; the replica is
stale when an entry is overwritten. -/
theorem edit_refused_stale :
    let task (u : UniqueId) : Record := ⟨"Tasks", u, 0, ⟨#[1]⟩⟩
    let d : Device :=
      { databases := [{ name := "Tasks", records := Slots.numbered 0 [task 1, task 2] }]
        renumbering := true }
    let session := guarded "Tasks" 1
    let switch (change : Database → Database) (d : Device) : Device :=
      { d with databases := d.databases.map change }
    let history : List (Turn Device) :=
      [.foreign (switch fun db => { db with refusingSlotTable := true }), .own (.add (task 0)),
        .foreign (switch fun db => { db with refusingSlotTable := false, readOnly := true })]
    ∃ r s₁, load session.recorded "Tasks" (d, []) = (.ok r, s₁) ∧
      let (r', s') := turns session (r, s₁) history
      let (answer, after) := r'.edit session.recorded (.overwrite ⟨0, task 2⟩ (task 0)) s'
      r'.stale = true ∧ answer = .error (.readOnly "Tasks") ∧ Untouched r' s' after := by
  intro task d session switch history
  let e := Edit.overwrite ⟨0, task 2⟩ (task 0)
  obtain ⟨r, s₁, hload, h⟩ := exists_of_answersWith (load session.recorded "Tasks" (d, []))
    (fun r s₁ =>
      let (r', s') := turns session (r, s₁) history
      decide (r'.stale = true ∧ s'.1.Shielded "Tasks" 1 ∧ 2 ∈ r'.entries.map (·.uniqueId) ∧
        (s'.1.database? 1).map (·.refusingSlotTable) = some false))
    (by decide +kernel)
  obtain ⟨hstale, hshielded, hlisted, hopen⟩ := of_decide_eq_true h
  have hswitch : ∀ change, Turn.foreign change ∈ history → Switches change := by
    intro change hmem d
    simp only [history, List.mem_cons, List.not_mem_nil, Turn.foreign.injEq, reduceCtorEq,
      or_false, false_or] at hmem
    rcases hmem with rfl | rfl <;>
      simp [holdings, switch, Function.comp_def]
  obtain ⟨⟨log, -, huntouched⟩, hreadOnly⟩ := edit_refused hload history hswitch e
  have hanswer := hreadOnly hshielded fun entry he => by
    obtain rfl := Option.some.inj he
    exact ⟨hlisted, fun _ => hopen⟩
  exact ⟨r, s₁, hload, hstale, hanswer, huntouched (Or.inr (Or.inl ⟨_, hanswer⟩))⟩

end Replica

end Palmtop
