import Palmtop.Device.Writer
import Palmtop.Proofs.Device.Commands

/-! # What a device is told

A device keeps a transcript of the commands it is given.  Putting a record concerns the database of
the record alone, and of the commands this takes only the last can be refused; then the record is
refused (`Writer.put_spoke`).  This holds of every device, whatever its faults.
-/
namespace Palmtop.Device

variable {d d' : Device} {name other : String} {c : Command} {id : DatabaseId} {α β : Type}

/-! ## Names -/

/-- The name of the database with this id. -/
def nameOf? (d : Device) (id : DatabaseId) : Option String := (d.database? id).map (·.name)

/-- The command looks the database up or addresses it. -/
def Concerns (d : Device) (name : String) (c : Command) : Prop :=
  c = .databaseId name ∨ ∃ id, c.database? = some id ∧ d.nameOf? id = some name

/-- A command concerns one database at most. -/
theorem Concerns.unique (h : d.Concerns name c) (h' : d.Concerns other c) : name = other := by
  rcases h with rfl | ⟨id, hid, hname⟩
  · rcases h' with h' | ⟨id, hid, -⟩
    · exact Command.databaseId.inj h'
    · cases hid
  · rcases h' with rfl | ⟨id', hid', hname'⟩
    · cases hid
    · rw [hid] at hid'
      rw [← Option.some.inj hid', hname] at hname'
      exact Option.some.inj hname'

theorem nameOf?_congr (h : d'.databases.map (·.name) = d.databases.map (·.name)) :
    d'.nameOf? = d.nameOf? := by
  funext id
  unfold nameOf? database?
  split
  · rfl
  · rw [← List.getElem?_map, h, List.getElem?_map]

theorem concerns_congr (h : d'.nameOf? = d.nameOf?) : d'.Concerns = d.Concerns := by
  unfold Concerns
  rw [h]

/-- No command gives a database another name. -/
theorem names_execute (d : Device) (c : Command) :
    (d.execute c).2.databases.map (·.name) = d.databases.map (·.name) := by
  obtain h | ⟨id, db, new, hdb, hbare, h | h⟩ := execute_cases d c
  · rw [h]
  · rw [h, names_setDatabase hdb (Database.name_of_bare hbare)]
  · rw [h, mutate_eq]
    exact names_setDatabase hdb (by rw [name_stored, Database.name_of_bare hbare])

theorem nameOf?_execute (d : Device) (c : Command) : (d.execute c).2.nameOf? = d.nameOf? :=
  nameOf?_congr (names_execute d c)

theorem transcript_execute (d : Device) (c : Command) :
    (d.execute c).2.transcript = d.transcript := by
  obtain h | ⟨id, db, new, -, -, h | h⟩ := execute_cases d c
  · rw [h]
  · rw [h]
    rfl
  · rw [h, mutate_eq]
    rfl

/-! ## News -/

/-- Of these exchanges, the latest first, none was refused, or the last one alone. -/
def Settled : (ok : Bool) → List Exchange → Prop
  | true, news => ∀ e ∈ news, e.accepted = true
  | false, [] => False
  | false, e :: earlier => e.accepted = false ∧ ∀ x ∈ earlier, x.accepted = true

/-- What the device was told concerned one database, and was accepted; or it was refused the last
time. -/
structure Spoke (name : String) (d : Device) (ok : Bool) (d' : Device) : Prop where
  nameOf? : d'.nameOf? = d.nameOf?
  news : ∃ news, d'.transcript = news ++ d.transcript ∧
    (∀ e ∈ news, d.Concerns name e.command) ∧ Settled ok news

theorem spoke_self (name : String) (d : Device) : Spoke name d true d :=
  ⟨rfl, [], rfl, nofun, nofun⟩

theorem Settled.append {ok : Bool} {news earlier : List Exchange} (h : Settled ok news)
    (hearlier : Settled true earlier) : Settled ok (news ++ earlier) := by
  cases ok with
  | true => exact fun e he => (List.mem_append.mp he).elim (h e) (hearlier e)
  | false =>
    cases news with
    | nil => exact h.elim
    | cons e news =>
      exact ⟨h.1, fun x hx => (List.mem_append.mp hx).elim (h.2 x) (hearlier x)⟩

theorem Spoke.trans {d'' : Device} {ok : Bool} (h : Spoke name d true d')
    (h' : Spoke name d' ok d'') : Spoke name d ok d'' := by
  obtain ⟨hnames, news, hnews, hconcerns, hsettled⟩ := h
  obtain ⟨hnames', news', hnews', hconcerns', hsettled'⟩ := h'
  rw [concerns_congr hnames] at hconcerns'
  refine ⟨hnames'.trans hnames, news' ++ news, ?_, fun e he => ?_, hsettled'.append hsettled⟩
  · rw [hnews', hnews, List.append_assoc]
  · exact (List.mem_append.mp he).elim (hconcerns' e) (hconcerns e)

/-- One command. -/
theorem spoke_run {answer : Except Error c.Answer} (hc : d.Concerns name c)
    (h : session.run c d = (answer, d')) : Spoke name d (accepted answer) d' := by
  rw [run_session] at h
  obtain ⟨rfl, rfl⟩ := Prod.mk.inj h
  refine ⟨?_, [⟨c, accepted (d.execute c).1⟩], ?_, ?_, ?_⟩
  · exact nameOf?_execute d c
  · rw [logged, transcript_execute]
    rfl
  · simpa using hc
  · cases h : accepted (d.execute c).1 with
    | true => simp [Settled]
    | false => simp [Settled]

/-- A database that was looked up is the one of this name. -/
theorem nameOf?_of_databaseId (hd : d.Proper) (h : session.databaseId name d = (.ok id, d')) :
    d.nameOf? id = some name := by
  rw [Session.databaseId, run_session] at h
  cases hdb : d.named? name with
  | none =>
    rw [databaseId_of_not_named hdb] at h
    cases h
  | some db =>
    obtain ⟨id', hrun, hid'⟩ := hd.databaseId_of_named? hdb
    rw [hrun] at h
    cases h
    rw [nameOf?, hid', Option.map_some, (named?_mem hdb).2]

/-! ## One record -/

namespace Writer

variable {w : Writer}

theorem reach_spoke (hd : d.Proper) (hw : ∀ t, w.target? name = some t →
      d.nameOf? t.id = some name) :
    Spoke name d (accepted (w.reach session name d).1) (w.reach session name d).2.2 ∧
      ∀ t w' d', w.reach session name d = (.ok t, w', d') → d.nameOf? t.id = some name := by
  unfold reach
  split
  · rename_i t ht
    refine ⟨spoke_self name d, ?_⟩
    rintro t' w' d' ⟨⟩
    exact hw t ht
  split
  · rename_i e d₁ hrun
    exact ⟨spoke_run (Or.inl rfl) hrun, nofun⟩
  rename_i id d₁ hrun
  have hid := nameOf?_of_databaseId hd hrun
  have hlooked : Spoke name d true d₁ := spoke_run (Or.inl rfl) hrun
  have haddressed : ∀ c : Command, c.database? = some id → d₁.Concerns name c := fun c hc =>
    Or.inr ⟨id, hc, hlooked.nameOf? ▸ hid⟩
  split
  · split
    · rename_i e d₂ hclear
      exact ⟨hlooked.trans (spoke_run (haddressed (.clearDatabase id) rfl) hclear), nofun⟩
    · rename_i d₂ hclear
      refine ⟨hlooked.trans (spoke_run (haddressed (.clearDatabase id) rfl) hclear), ?_⟩
      rintro t w' d' ⟨⟩
      exact hid
  · split
    · rename_i e d₂ htable
      exact ⟨hlooked.trans (spoke_run (haddressed (.slotTable id) rfl) htable), nofun⟩
    · rename_i table d₂ htable
      refine ⟨hlooked.trans (spoke_run (haddressed (.slotTable id) rfl) htable), ?_⟩
      rintro t w' d' ⟨⟩
      exact hid

theorem freshTarget_spoke (hd : d.Proper) (hw : ∀ t, w.target? name = some t →
      d.nameOf? t.id = some name) :
    Spoke name d (accepted (w.freshTarget session name d).1) (w.freshTarget session name d).2.2 ∧
      ∀ t w' d', w.freshTarget session name d = (.ok t, w', d') →
        d.nameOf? t.id = some name := by
  obtain ⟨hreached, hid⟩ := reach_spoke hd hw
  unfold freshTarget
  split
  · rename_i e w₁ d₁ hreach
    rw [hreach] at hreached
    exact ⟨hreached, nofun⟩
  rename_i t w₁ d₁ hreach
  rw [hreach] at hreached
  have hid := hid t w₁ d₁ hreach
  have haddressed : d₁.Concerns name (.slotTable t.id) :=
    Or.inr ⟨t.id, rfl, hreached.nameOf? ▸ hid⟩
  split
  · split
    · rename_i e d₂ htable
      exact ⟨hreached.trans (spoke_run haddressed htable), nofun⟩
    · rename_i fresh d₂ htable
      refine ⟨hreached.trans (spoke_run haddressed htable), ?_⟩
      rintro t' w' d' ⟨⟩
      exact hid
  · refine ⟨hreached, ?_⟩
    rintro t' w' d' ⟨⟩
    exact hid

theorem afterMutation_eq (w : Writer) (result : Except Error Unit × Device) :
    (w.afterMutation result).1 = result.1 ∧ (w.afterMutation result).2.2 = result.2 := by
  rcases result with ⟨e | _, d⟩
  · exact ⟨rfl, rfl⟩
  · exact ⟨rfl, rfl⟩

/-- Putting a record concerns its database alone, and what is refused ends it. -/
theorem put_spoke {r : Record} (hd : d.Proper) (hw : ∀ t, w.target? r.database = some t →
      d.nameOf? t.id = some r.database) :
    Spoke r.database d (accepted (w.put session r d).1) (w.put session r d).2.2 := by
  obtain ⟨hreached, hid⟩ := freshTarget_spoke hd hw
  unfold put
  split
  · rename_i e w₁ d₁ hreach
    rw [hreach] at hreached
    exact hreached
  rename_i t w₁ d₁ hreach
  rw [hreach] at hreached
  have hid₁ : d₁.nameOf? t.id = some r.database := hreached.nameOf? ▸ hid t w₁ d₁ hreach
  have hwrite : ∀ (w₂ : Writer) slot x,
      Spoke r.database d (accepted (w₂.afterMutation (session.writeRecord t.id slot x d₁)).1)
        (w₂.afterMutation (session.writeRecord t.id slot x d₁)).2.2 := fun w₂ slot x => by
    rw [(afterMutation_eq w₂ _).1, (afterMutation_eq w₂ _).2]
    exact hreached.trans (spoke_run (Or.inr ⟨t.id, rfl, hid₁⟩) rfl)
  have hadd : ∀ (w₂ : Writer) x,
      Spoke r.database d (accepted (w₂.afterMutation (session.addRecord t.id x d₁)).1)
        (w₂.afterMutation (session.addRecord t.id x d₁)).2.2 := fun w₂ x => by
    rw [(afterMutation_eq w₂ _).1, (afterMutation_eq w₂ _).2]
    exact hreached.trans (spoke_run (Or.inr ⟨t.id, rfl, hid₁⟩) rfl)
  split
  · exact hreached
  · exact hwrite _ _ _
  · exact hadd _ _
  · exact hadd _ _

end Writer

end Palmtop.Device
