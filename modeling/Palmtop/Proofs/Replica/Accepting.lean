import Palmtop.Proofs.Replica.Hosting

/-! # Sessions that accept commands

What a session has refused so far says nothing of what it accepts from now on.  A session *accepts*
the next `n` commands on a database when it answers each of them that `Fits` the records: the slot
written or deleted is in use, and the id of a record added is not.

A plan that has come to its end refuses nothing any more (`Accepts.refusing`), and a device in
memory with no fault switched on accepts as many commands as there is room for mutations
(`accepts_guarded`), whether it renumbers or not.
-/
namespace Palmtop.Device

variable {σ : Type} {session : Session σ} {name : String} {id : DatabaseId}
  {view : σ → Slots Record} {n : Nat}

/-- The command can be done to these records of the database of this name and id. -/
def Fits (name : String) (id : DatabaseId) (records : Slots Record) : Command → Prop
  | .slotTable i => i = id
  | .writeRecord i slot x => i = id ∧ x.database = name ∧
    ∃ old, records.get? slot = some old ∧ old.uniqueId = x.uniqueId
  | .addRecord i x => i = id ∧ x.database = name ∧
    x.uniqueId ∉ records.values.map (·.uniqueId)
  | .deleteRecord i slot => i = id ∧ ∃ old, records.get? slot = some old
  | _ => False

/-- The next `n` commands are accepted, each if it fits the records then. -/
def Accepts (session : Session σ) (name : String) (id : DatabaseId) (view : σ → Slots Record) :
    (n : Nat) → σ → Prop
  | 0, _ => True
  | n + 1, s => ∀ c, Fits name id (view s) c →
    ∃ answer s', session.run c s = (.ok answer, s') ∧ Accepts session name id view n s'

theorem Accepts.mono {m : Nat} {s : σ} (h : Accepts session name id view n s) (hmn : m ≤ n) :
    Accepts session name id view m s := by
  induction m generalizing n s with
  | zero => trivial
  | succ m ih =>
    obtain ⟨n, rfl⟩ := Nat.exists_eq_add_of_le' (Nat.le_trans (Nat.succ_pos m) hmn)
    intro c hc
    obtain ⟨answer, s', hrun, hrest⟩ := h c hc
    exact ⟨answer, s', hrun, ih hrest (Nat.le_of_succ_le_succ hmn)⟩

/-- The next command, with a transcript. -/
theorem Accepts.run {s : σ × List Exchange} (h : Accepts session name id view (n + 1) s.1)
    {c : Command} (hc : Fits name id (view s.1) c) :
    ∃ answer s', session.recorded.run c s = (.ok answer, s') ∧
      Accepts session name id view n s'.1 := by
  obtain ⟨answer, s', hrun, hrest⟩ := h c hc
  exact ⟨answer, _, by rw [run_recorded, hrun], hrest⟩

/-- Behind its plan a session accepts what it accepts without. -/
theorem Accepts.refusing {s : σ} (h : Accepts session name id view n s) :
    Accepts session.refusing name id (fun s => view s.1) n (s, []) := by
  induction n generalizing s with
  | zero => trivial
  | succ n ih =>
    intro c hc
    obtain ⟨answer, s', hrun, hrest⟩ := h c hc
    exact ⟨answer, (s', []), by simp only [Session.refusing, hrun], ih hrest⟩

/-- A device in memory that is ready accepts what fits. -/
theorem accepts_guarded {d : Device} (hready : d.Ready (n + 1))
    (hname : (d.database? id).map (·.name) = some name) :
    Accepts (guarded name id) name id (recordsAt id) n d := by
  induction n generalizing d with
  | zero => trivial
  | succ n ih =>
    obtain ⟨db, hdb, rfl⟩ := Option.map_eq_some_iff.mp hname
    have hsound := hready.sound
    have hwilling := hready.willing.databases db (database?_mem hdb)
    have hrun (c : Command) : (guarded db.name id).run c d = session.run c d :=
      if_pos ⟨hready.proper, hready.room.mono (by omega), hname⟩
    -- a mutation leaves room for one less
    have hmutation {after : Device} {new : Database} (hafter : after.Sound (n + 1))
        (hchanged : d.Changed after id db new) :
        Accepts (guarded db.name id) db.name id (recordsAt id) n after := by
      refine ih ((hchanged.leaves hready.proper).ready hready hafter) ?_
      rw [hchanged.database?_self, Option.map_some, hchanged.name]
    intro c hc
    rw [hrun]
    rw [recordsAt_of_database? hdb] at hc
    cases c with
    | slotTable i =>
      obtain rfl : i = id := hc
      obtain ⟨e, htable⟩ := hsound.slotTable hdb hwilling.tableRefusal
      exact ⟨_, _, htable, ih ((observed_self d).logged e |>.ready (hready.mono (by omega))) hname⟩
    | writeRecord i slot x =>
      obtain ⟨rfl, hx, old, hold, hid⟩ := hc
      obtain ⟨after, new, hwrite, hafter, hchanged, -⟩ :=
        hsound.writeRecord hdb hwilling.writeRefusal hold hid hx
      exact ⟨_, _, hwrite, hmutation hafter hchanged⟩
    | addRecord i x =>
      obtain ⟨rfl, hx, hnew⟩ := hc
      obtain ⟨after, new, hadd, hafter, hchanged, -⟩ :=
        hsound.addRecord hdb hwilling.growthRefusal hnew hx
      exact ⟨_, _, hadd, hmutation hafter hchanged⟩
    | deleteRecord i slot =>
      obtain ⟨rfl, old, hold⟩ := hc
      obtain ⟨after, new, hdelete, hafter, hchanged, -⟩ :=
        hsound.deleteRecord hdb hwilling.writeRefusal hold
      exact ⟨_, _, hdelete, hmutation hafter hchanged⟩
    | catalog | databaseId | readRecord | clearDatabase => exact hc.elim

end Palmtop.Device
