import Palmtop.Proofs.Device.Hearing
import Palmtop.Proofs.Device.Minutes
import Palmtop.Proofs.Device.Writing

/-! # Fresh slots

A writer remembers of each database it has opened which id the device gave it and which slots were
in use, and it may be refused anything at any time.  What it says to put a record depends on nothing
but its mode and what it remembers of the database of the record (`Writer.Utters`).

So whatever the device does, no slot is used but one that the device has just given for the id of
the record; and a database is cleared once, before anything is put into it (`Writer.Careful`,
`Writer.careful_deeds`).  The writer tells databases apart by their names and the device by their
ids.  That is the same unless the device gives one id to databases of different names, which a
device in memory does not (`Writer.unshared_deeds`).
-/
namespace Palmtop.Device

variable {σ : Type}

namespace Interaction

/-- The exchange, without what was answered. -/
def exchange (i : Interaction) : Exchange := ⟨i.command, accepted i.answer⟩

/-- The database was to be cleared. -/
def isClear (i : Interaction) : Bool := match i.command with
  | .clearDatabase _ => true
  | _ => false

/-- From here on the database is not to be cleared: it was cleared, or a record was sent to it. -/
def settles (i : Interaction) : Bool := match i.command with
  | .clearDatabase _ => accepted i.answer
  | .addRecord _ _ | .writeRecord _ _ _ => true
  | _ => false

end Interaction

/-- Right before each record that is written to a slot, the device has given the slot for its id. -/
def Fetched (said : List Interaction) : Prop :=
  ∀ before id slot r answer after, said = before ++ ⟨.writeRecord id slot r, answer⟩ :: after →
    ∃ earlier table, before = earlier ++ [⟨.slotTable id, .ok table⟩] ∧
      table.slotOf? r.uniqueId = some slot

/-- No two names are of one database. -/
def Unshared (said : List Interaction) : Prop :=
  ∀ name other id, ⟨.databaseId name, .ok id⟩ ∈ said → ⟨.databaseId other, .ok id⟩ ∈ said →
    name = other

theorem Fetched.append {said news : List Interaction} (h : Fetched said) (hnews : Fetched news) :
    Fetched (said ++ news) := by
  intro before id slot r answer after heq
  rcases List.append_eq_append_iff.mp heq with ⟨middle, rfl, hmiddle⟩ | ⟨middle, hmiddle, hrest⟩
  · obtain ⟨earlier, table, rfl, hslot⟩ := hnews middle id slot r answer after hmiddle
    exact ⟨said ++ earlier, table, (List.append_assoc ..).symm, hslot⟩
  · cases middle with
    | nil =>
      obtain ⟨earlier, table, hnil, -⟩ := hnews [] id slot r answer after hrest.symm
      exact absurd hnil (by simp)
    | cons i middle =>
      obtain ⟨rfl, -⟩ := List.cons.inj hrest
      exact h before id slot r answer middle hmiddle

theorem fetched_of_forall {said : List Interaction}
    (h : ∀ i ∈ said, ∀ id slot r, i.command ≠ .writeRecord id slot r) : Fetched said := by
  rintro before id slot r answer after rfl
  exact absurd rfl (h _ (List.mem_append_right _ List.mem_cons_self) id slot r)

theorem Fetched.concat {said : List Interaction} {id : DatabaseId} {slot : Slot} {r : Record}
    (h : Fetched said) (answer : Except Error Unit)
    (hsaid : ∃ earlier table, said = earlier ++ [⟨.slotTable id, .ok table⟩] ∧
      table.slotOf? r.uniqueId = some slot) :
    Fetched (said ++ [⟨.writeRecord id slot r, answer⟩]) := by
  intro before id' slot' r' answer' after heq
  rcases List.eq_nil_or_concat after with rfl | ⟨middle, i, rfl⟩
  · obtain ⟨rfl, hlast⟩ := List.append_inj' heq rfl
    obtain ⟨⟨rfl, rfl, rfl⟩, -⟩ : (id = id' ∧ slot = slot' ∧ r = r') ∧ _ := by
      simpa using hlast
    exact hsaid
  · have hsplit : said = before ++ ⟨.writeRecord id' slot' r', answer'⟩ :: middle := by
      rw [List.concat_eq_append, ← List.cons_append, ← List.append_assoc] at heq
      exact (List.append_inj' heq rfl).1
    exact h before id' slot' r' answer' middle hsplit

namespace Writer

variable {mode : WriteMode} {name : String} {r : Record} {w w' : Writer} {s s' : σ}
  {before after : Option Target} {said news past : List Interaction} {t : Target}

/-! ## One record -/

/-- How a writer comes by a target for a database, given what it remembers. -/
inductive Opens (mode : WriteMode) (name : String) :
    Option Target → List Interaction → Target → Prop where
  /-- Nothing was sent to the database since its table was fetched. -/
  | known (t : Target) (fresh : t.stale = false) : Opens mode name (some t) [] t
  | refreshed (t : Target) (table : SlotTable) (stale : t.stale = true) :
      Opens mode name (some t) [⟨.slotTable t.id, .ok table⟩]
        { t with table := t.table.refresh table, stale := false }
  | cleared (id : DatabaseId) (erasing : mode = .eraseAll) :
      Opens mode name none [⟨.databaseId name, .ok id⟩, ⟨.clearDatabase id, .ok ()⟩]
        { id, table := {} }
  | fetched (id : DatabaseId) (table : SlotTable) (keeping : mode ≠ .eraseAll) :
      Opens mode name none [⟨.databaseId name, .ok id⟩, ⟨.slotTable id, .ok table⟩] { id, table }

/-- How it fails to. -/
inductive Fails (mode : WriteMode) (name : String) :
    Option Target → List Interaction → Prop where
  | unknown (e : Error) : Fails mode name none [⟨.databaseId name, .error e⟩]
  | uncleared (id : DatabaseId) (e : Error) (erasing : mode = .eraseAll) :
      Fails mode name none [⟨.databaseId name, .ok id⟩, ⟨.clearDatabase id, .error e⟩]
  | unfetched (id : DatabaseId) (e : Error) (keeping : mode ≠ .eraseAll) :
      Fails mode name none [⟨.databaseId name, .ok id⟩, ⟨.slotTable id, .error e⟩]
  | unrefreshed (t : Target) (e : Error) (stale : t.stale = true) :
      Fails mode name (some t) [⟨.slotTable t.id, .error e⟩]

/-- What a writer says to put a record, and what it remembers of the database afterwards. -/
inductive Utters (mode : WriteMode) (r : Record) :
    Option Target → List Interaction → Option Target → Prop where
  | fails {before : Option Target} {said : List Interaction}
      (fails : Fails mode r.database before said) : Utters mode r before said before
  | leaves {before : Option Target} {said : List Interaction} {t : Target}
      (opens : Opens mode r.database before said t) (adding : mode = .addOnly) :
      Utters mode r before said (some t)
  | overwrites {before : Option Target} {said : List Interaction} {t : Target} (slot : Slot)
      (answer : Except Error Unit) (opens : Opens mode r.database before said t)
      (overwriting : mode = .addAndOverwrite) (found : t.table.slotOf? r.uniqueId = some slot) :
      Utters mode r before (said ++ [⟨.writeRecord t.id slot r, answer⟩])
        (some { t with stale := true })
  | adds {before : Option Target} {said : List Interaction} {t : Target} (table : SlotTable)
      (x : Record) (answer : Except Error Unit) (opens : Opens mode r.database before said t) :
      Utters mode r before (said ++ [⟨.addRecord t.id x, answer⟩])
        (some { t with table, stale := true })

/-- The writer knows this of one database now, and of the others what it did. -/
structure Learns (w : Writer) (name : String) (now : Option Target) (w' : Writer) : Prop where
  mode : w'.mode = w.mode
  target? : ∀ other, w'.target? other = if other = name then now else w.target? other

theorem learns_self (w : Writer) (name : String) : Learns w name (w.target? name) w := by
  refine ⟨rfl, fun other => ?_⟩
  split
  · rename_i he
    rw [he]
  · rfl

theorem learns_setTarget (w : Writer) (name : String) (t : Target) :
    Learns w name (some t) (w.setTarget name t) :=
  ⟨rfl, target?_setTarget w name t⟩

theorem Learns.setTarget (h : Learns w name before w') (t : Target) :
    Learns w name (some t) (w'.setTarget name t) := by
  refine ⟨h.mode, fun other => ?_⟩
  rw [target?_setTarget, h.target?]
  split <;> rfl

/-- The database comes to be known, or the writer remembers what it did. -/
theorem freshTarget_opens (session : Session σ) (w : Writer) (name : String) (s : σ)
    (past : List Interaction) : ∃ said s',
    (∃ e, w.freshTarget session.minuted name (s, past) = (.error e, w, s', past ++ said) ∧
      Fails w.mode name (w.target? name) said) ∨
    ∃ t w', w.freshTarget session.minuted name (s, past) = (.ok t, w', s', past ++ said) ∧
      Opens w.mode name (w.target? name) said t ∧ Learns w name (some t) w' := by
  cases htarget : w.target? name with
  | some t =>
    have hreach : w.reach session.minuted name (s, past) = (.ok t, w, s, past) := by
      simp only [reach, htarget]
    unfold freshTarget
    rw [hreach]
    by_cases hstale : t.stale = true
    · rcases hfetch : session.run (.slotTable t.id) s with ⟨e | table, s'⟩
      · refine ⟨_, s', .inl ⟨e, ?_, .unrefreshed t e hstale⟩⟩
        simp only [hstale, if_true, Session.slotTable, Session.run_minuted hfetch]
      · refine ⟨_, s', .inr ⟨_, _, ?_, .refreshed t table hstale, learns_setTarget w name _⟩⟩
        simp only [hstale, if_true, Session.slotTable, Session.run_minuted hfetch]
    · refine ⟨[], s, .inr ⟨t, w, ?_, .known t (Bool.eq_false_iff.mpr hstale), ?_⟩⟩
      · rw [List.append_nil]
        simp only [hstale, if_false, Bool.false_eq_true]
      · rw [← htarget]
        exact learns_self w name
  | none =>
    rcases hlookup : session.run (.databaseId name) s with ⟨e | id, s₁⟩
    · refine ⟨_, s₁, .inl ⟨e, ?_, .unknown e⟩⟩
      simp only [freshTarget, reach, htarget, Session.databaseId, Session.run_minuted hlookup]
    have hlooked := Session.run_minuted hlookup past
    by_cases hmode : w.mode = .eraseAll
    · rcases hclear : session.run (.clearDatabase id) s₁ with ⟨e | ⟨⟩, s₂⟩
      · refine ⟨_, s₂, .inl ⟨e, ?_, .uncleared id e hmode⟩⟩
        simp only [freshTarget, reach, htarget, Session.databaseId, hlooked, hmode, if_true,
          Session.clearDatabase, Session.run_minuted hclear, List.append_assoc]
        rfl
      · refine ⟨_, s₂, .inr ⟨_, _, ?_, .cleared id hmode, learns_setTarget w name _⟩⟩
        simp only [freshTarget, reach, htarget, Session.databaseId, hlooked, hmode, if_true,
          Session.clearDatabase, Session.run_minuted hclear, List.append_assoc]
        rfl
    · rcases hfetch : session.run (.slotTable id) s₁ with ⟨e | table, s₂⟩
      · refine ⟨_, s₂, .inl ⟨e, ?_, .unfetched id e hmode⟩⟩
        simp only [freshTarget, reach, htarget, Session.databaseId, hlooked, hmode, if_false,
          Session.slotTable, Session.run_minuted hfetch, List.append_assoc]
        rfl
      · refine ⟨_, s₂, .inr ⟨_, _, ?_, .fetched id table hmode, learns_setTarget w name _⟩⟩
        simp only [freshTarget, reach, htarget, Session.databaseId, hlooked, hmode, if_false,
          Session.slotTable, Session.run_minuted hfetch, List.append_assoc]
        rfl

/-- Something is sent to the database, and what becomes of it counted. -/
theorem utters_afterMutation {w₁ : Writer} {i : Interaction} (h : Learns w name before w₁)
    (t : Target) (answer : Except Error Unit) (s : σ) (past : List Interaction)
    (utters : Utters w.mode r (w.target? name) (said ++ [i]) (some t)) :
    ∃ answer' w' s' said' after,
      (w₁.setTarget name t).afterMutation (answer, s, past ++ said ++ [i])
          = (answer', w', s', past ++ said') ∧
        Utters w.mode r (w.target? name) said' after ∧ Learns w name after w' := by
  rw [List.append_assoc]
  have hw₁ := h.setTarget t
  cases answer with
  | error e => exact ⟨.error e, _, s, _, _, rfl, utters, hw₁⟩
  | ok _ => exact ⟨.ok (), _, s, _, _, rfl, utters, hw₁.mode, hw₁.target?⟩

theorem put_utters (session : Session σ) (w : Writer) (r : Record) (s : σ)
    (past : List Interaction) : ∃ answer w' s' said after,
    w.put session.minuted r (s, past) = (answer, w', s', past ++ said) ∧
      Utters w.mode r (w.target? r.database) said after ∧ Learns w r.database after w' := by
  obtain ⟨said, s₁, ⟨e, hfresh, hfails⟩ | ⟨t, w₁, hfresh, hopens, hw₁⟩⟩ :=
    freshTarget_opens session w r.database s past
  · refine ⟨.error e, w, s₁, said, _, ?_, .fails hfails, learns_self w _⟩
    simp only [put, hfresh]
  have hadds (table : SlotTable) (x : Record) := utters_afterMutation hw₁ _
    (session.run (.addRecord t.id x) s₁).1 (session.run (.addRecord t.id x) s₁).2 past
    (.adds table x (session.run (.addRecord t.id x) s₁).1 hopens)
  unfold put
  rw [hfresh]
  dsimp only
  split
  · rename_i hmode hslot
    exact ⟨.ok (), _, s₁, said, some t, rfl, .leaves hopens (hw₁.mode ▸ hmode), hw₁.mode,
      hw₁.target?⟩
  · rename_i slot hmode hslot
    exact utters_afterMutation hw₁ _ (session.run (.writeRecord t.id slot r) s₁).1
      (session.run (.writeRecord t.id slot r) s₁).2 past
      (.overwrites slot (session.run (.writeRecord t.id slot r) s₁).1 hopens
        (hw₁.mode ▸ hmode) hslot)
  · exact hadds t.table.allocate.2 (r.withUniqueId t.table.allocate.1)
  · exact hadds t.table r

/-! ## What can be read off -/

/-- The id of a database that the writer addresses is the one it remembers, or was just given. -/
def Given (name : String) (before : Option Target) (said : List Interaction) (id : DatabaseId) :
    Prop :=
  (∃ t ∈ before, t.id = id) ∨ ⟨.databaseId name, .ok id⟩ ∈ said

theorem Given.append {id : DatabaseId} (h : Given name before said id) (news : List Interaction) :
    Given name before (said ++ news) id :=
  h.imp_right (List.mem_append_left news)

theorem Opens.given (h : Opens mode name before said t) : Given name before said t.id := by
  cases h with
  | known | refreshed => exact .inl ⟨_, rfl, rfl⟩
  | cleared | fetched => exact .inr List.mem_cons_self

theorem Opens.addressed (h : Opens mode name before said t) : ∀ i ∈ said, ∀ id,
    i.command.database? = some id → id = t.id := by
  cases h with
  | known => simp
  | refreshed => simp [Command.database?]
  | cleared => simp [Command.database?]
  | fetched => simp [Command.database?]

/-- What was said before the database is known settles nothing, but that it was cleared. -/
theorem Opens.settled (h : Opens mode name before said t) :
    said.Pairwise fun i j => i.settles = true → j.isClear = false := by
  cases h with
  | known | refreshed | cleared | fetched => simp [Interaction.settles]

theorem Opens.erasing (h : Opens mode name before said t) : ∀ i ∈ said, i.isClear = true →
    mode = .eraseAll ∧ before = none := by
  cases h with
  | known => simp
  | refreshed => simp [Interaction.isClear]
  | cleared _ erasing => simp [Interaction.isClear, erasing]
  | fetched => simp [Interaction.isClear]

theorem Opens.fetched_of_slotOf? {id : UniqueId} {slot : Slot} (h : Opens mode name before said t)
    (hkeeping : mode ≠ .eraseAll) (hstale : ∀ t ∈ before, t.stale = true)
    (hslot : t.table.slotOf? id = some slot) : ∃ earlier table,
      said = earlier ++ [⟨.slotTable t.id, .ok table⟩] ∧ table.slotOf? id = some slot := by
  cases h with
  | known t fresh => exact absurd ((hstale t rfl).symm.trans fresh) Bool.noConfusion
  | refreshed t table => exact ⟨[], table, rfl, hslot⟩
  | cleared _ erasing => exact absurd erasing hkeeping
  | fetched id table => exact ⟨[⟨.databaseId name, .ok id⟩], table, rfl, hslot⟩

theorem Opens.fetched_said (h : Opens mode name before said t) : Fetched said := by
  apply fetched_of_forall
  cases h with
  | known | refreshed | cleared | fetched => simp

theorem Fails.given (h : Fails mode name before said) : ∀ i ∈ said, ∀ id,
    i.command.database? = some id → Given name before said id := by
  cases h with
  | unknown => simp [Command.database?]
  | uncleared | unfetched => simp [Command.database?, Given]
  | unrefreshed => simp [Command.database?, Given]

theorem Fails.settles_eq_false (h : Fails mode name before said) :
    ∀ i ∈ said, i.settles = false := by
  cases h with
  | unknown | uncleared | unfetched | unrefreshed => simp [Interaction.settles, accepted]

theorem Fails.erasing (h : Fails mode name before said) : ∀ i ∈ said, i.isClear = true →
    mode = .eraseAll ∧ before = none := by
  cases h with
  | unknown => simp [Interaction.isClear]
  | uncleared _ _ erasing => simp [Interaction.isClear, erasing]
  | unfetched => simp [Interaction.isClear]
  | unrefreshed => simp [Interaction.isClear]

theorem Fails.fetched_said (h : Fails mode name before said) : Fetched said := by
  apply fetched_of_forall
  cases h with
  | unknown | uncleared | unfetched | unrefreshed => simp

namespace Utters

/-- What is remembered was remembered before, or was looked up. -/
theorem opened (h : Utters mode r before said after) :
    ∀ t ∈ after, Given r.database before said t.id := by
  intro t ht
  cases h with
  | fails => exact .inl ⟨t, ht, rfl⟩
  | leaves opens =>
    cases ht
    exact opens.given
  | overwrites _ _ opens | adds _ _ _ opens =>
    cases ht
    exact opens.given.append _

theorem given (h : Utters mode r before said after) : ∀ i ∈ said, ∀ id,
    i.command.database? = some id → Given r.database before said id := by
  intro i hi id hid
  cases h with
  | fails fails => exact fails.given i hi id hid
  | leaves opens => exact opens.addressed i hi id hid ▸ opens.given
  | overwrites _ _ opens | adds _ _ _ opens =>
    rcases List.mem_append.mp hi with hi | hi
    · exact (opens.addressed i hi id hid ▸ opens.given).append _
    · obtain rfl := List.mem_singleton.mp hi
      obtain rfl := Option.some.inj hid
      exact opens.given.append _

/-- A database into which records go that may be there has been touched since its table was
fetched. -/
theorem stale (h : Utters mode r before said after) (overwriting : mode = .addAndOverwrite)
    (hbefore : ∀ t ∈ before, t.stale = true) : ∀ t ∈ after, t.stale = true := by
  intro t ht
  cases h with
  | fails => exact hbefore t ht
  | leaves _ adding => exact absurd (adding.symm.trans overwriting) (by decide)
  | overwrites | adds =>
    cases ht
    rfl

theorem fetched_said (h : Utters mode r before said after)
    (hbefore : mode = .addAndOverwrite → ∀ t ∈ before, t.stale = true) : Fetched said := by
  cases h with
  | fails fails => exact fails.fetched_said
  | leaves opens => exact opens.fetched_said
  | overwrites slot answer opens overwriting found =>
    have hkeeping : mode ≠ .eraseAll := overwriting ▸ by decide
    exact opens.fetched_said.concat answer
      (opens.fetched_of_slotOf? hkeeping (hbefore overwriting) found)
  | adds table x answer opens =>
    exact opens.fetched_said.append (fetched_of_forall (by simp))

/-- As long as nothing is remembered, nothing was settled. -/
theorem unopened (h : Utters mode r before said after) (hafter : after = none) :
    before = none ∧ ∀ i ∈ said, i.settles = false := by
  cases h with
  | fails fails => exact ⟨hafter, fails.settles_eq_false⟩
  | leaves | overwrites | adds => cases hafter

/-- A database is cleared only as it is opened. -/
theorem erasing (h : Utters mode r before said after) : ∀ i ∈ said, i.isClear = true →
    mode = .eraseAll ∧ before = none := by
  intro i hi hclear
  cases h with
  | fails fails => exact fails.erasing i hi hclear
  | leaves opens => exact opens.erasing i hi hclear
  | overwrites _ _ opens | adds _ _ _ opens =>
    rcases List.mem_append.mp hi with hi | hi
    · exact opens.erasing i hi hclear
    · obtain rfl := List.mem_singleton.mp hi
      cases hclear

theorem settled (h : Utters mode r before said after) :
    said.Pairwise fun i j => i.settles = true → j.isClear = false := by
  cases h with
  | fails fails =>
    refine List.pairwise_of_forall_mem_list fun i hi j _ hsettles => ?_
    exact absurd ((fails.settles_eq_false i hi).symm.trans hsettles) Bool.false_ne_true
  | leaves opens => exact opens.settled
  | overwrites _ _ opens | adds _ _ _ opens =>
    refine List.pairwise_append.mpr ⟨opens.settled, List.pairwise_singleton _ _, ?_⟩
    intro i _ j hj _
    obtain rfl := List.mem_singleton.mp hj
    rfl

end Utters

/-! ## Record after record -/

/-- A record that was put, what became of it, and what was said. -/
structure Deed where
  record : Record
  answer : Except Error Unit
  minutes : List Interaction

/-- Puts records one after the other, whatever becomes of each. -/
def deeds (session : Session σ) : List Record → Writer → σ → List Deed × Writer × σ
  | [], w, s => ([], w, s)
  | r :: rs, w, s =>
    let (answer, w, s, minutes) := w.put session.minuted r (s, [])
    let (rest, w, s) := deeds session rs w s
    (⟨r, answer, minutes⟩ :: rest, w, s)

/-- All that was said, each with the name of the database that it was about. -/
def spoken (ds : List Deed) : List (String × Interaction) :=
  ds.flatMap fun d => d.minutes.map fun i => (d.record.database, i)

/-- All that was said. -/
def minutes (ds : List Deed) : List Interaction := ds.flatMap (·.minutes)

theorem map_snd_spoken (ds : List Deed) : (spoken ds).map Prod.snd = minutes ds := by
  rw [spoken, minutes, List.map_flatMap]
  refine List.flatMap_congr fun d _ => ?_
  rw [List.map_map]
  exact List.map_id _

/-- What the writer remembers is what was said, and nothing was said that should not have been. -/
structure Keeps (w : Writer) (said : List (String × Interaction)) : Prop where
  stale : w.mode = .addAndOverwrite → ∀ name, ∀ t ∈ w.target? name, t.stale = true
  opened : ∀ name, ∀ t ∈ w.target? name, (name, ⟨.databaseId name, .ok t.id⟩) ∈ said
  addressed : ∀ p ∈ said, ∀ id, p.2.command.database? = some id →
    (p.1, ⟨.databaseId p.1, .ok id⟩) ∈ said
  unopened : ∀ p ∈ said, w.target? p.1 = none → p.2.settles = false
  erasing : ∀ p ∈ said, p.2.isClear = true → w.mode = .eraseAll
  fetched : Fetched (said.map Prod.snd)
  settled : said.Pairwise fun p q => p.1 = q.1 → p.2.settles = true → q.2.isClear = false

theorem keeps_start (mode : WriteMode) : Keeps { mode } [] where
  stale _ _ := nofun
  opened _ := nofun
  addressed := List.forall_mem_nil _
  unopened := List.forall_mem_nil _
  erasing := List.forall_mem_nil _
  fetched := fetched_of_forall (List.forall_mem_nil _)
  settled := .nil

section step
variable {spoken : List (String × Interaction)}

/-- What is addressed in this record was looked up, now or before. -/
theorem Keeps.mem_of_given {id : DatabaseId} (h : Keeps w spoken)
    (hid : Given name (w.target? name) said id) :
    (name, ⟨.databaseId name, .ok id⟩) ∈ spoken ++ said.map (name, ·) := by
  rcases hid with ⟨t, ht, rfl⟩ | hid
  · exact List.mem_append_left _ (h.opened name t ht)
  · exact List.mem_append_right _ (List.mem_map_of_mem hid)

theorem Keeps.put (h : Keeps w spoken)
    (hutters : Utters w.mode r (w.target? r.database) said after)
    (hw' : Learns w r.database after w') :
    Keeps w' (spoken ++ said.map (r.database, ·)) where
  stale hmode name t ht := by
    rw [hw'.mode] at hmode
    rw [hw'.target?] at ht
    split at ht
    · exact hutters.stale hmode (h.stale hmode _) t ht
    · exact h.stale hmode name t ht
  opened name t ht := by
    rw [hw'.target?] at ht
    split at ht
    · rename_i he
      rw [he]
      exact h.mem_of_given (hutters.opened t ht)
    · exact List.mem_append_left _ (h.opened name t ht)
  addressed p hp id hid := by
    rcases List.mem_append.mp hp with hp | hp
    · exact List.mem_append_left _ (h.addressed p hp id hid)
    · obtain ⟨i, hi, rfl⟩ := List.mem_map.mp hp
      exact h.mem_of_given (hutters.given i hi id hid)
  unopened p hp hnone := by
    rw [hw'.target?] at hnone
    rcases List.mem_append.mp hp with hp | hp
    · refine h.unopened p hp ?_
      split at hnone
      · rename_i he
        rw [he]
        exact (hutters.unopened hnone).1
      · exact hnone
    · obtain ⟨i, hi, rfl⟩ := List.mem_map.mp hp
      rw [if_pos rfl] at hnone
      exact (hutters.unopened hnone).2 i hi
  erasing p hp hclear := by
    rw [hw'.mode]
    rcases List.mem_append.mp hp with hp | hp
    · exact h.erasing p hp hclear
    · obtain ⟨i, hi, rfl⟩ := List.mem_map.mp hp
      exact (hutters.erasing i hi hclear).1
  fetched := by
    rw [List.map_append, List.map_map]
    refine h.fetched.append ?_
    rw [show Prod.snd ∘ (r.database, ·) = (id : Interaction → Interaction) from rfl, List.map_id]
    exact hutters.fetched_said fun hmode => h.stale hmode _
  settled := by
    refine List.pairwise_append.mpr ⟨h.settled, ?_, ?_⟩
    · refine List.pairwise_map.mpr (hutters.settled.imp ?_)
      intro i j hij _
      exact hij
    · -- what was settled is remembered, and what is remembered is not cleared
      intro p hp q hq hname hsettles
      obtain ⟨i, hi, rfl⟩ := List.mem_map.mp hq
      refine Bool.eq_false_iff.mpr fun hclear => ?_
      have hnone := (hutters.erasing i hi hclear).2
      exact absurd ((h.unopened p hp (hname ▸ hnone)).symm.trans hsettles) Bool.false_ne_true

end step

/-! ## Every run -/

/-- The minutes are transcripts. -/
theorem notes_minuted (session : Session σ) : session.minuted.Notes fun news s t =>
    t.2.map Interaction.exchange = s.2.map Interaction.exchange ++ news.reverse where
  nothing s := (List.append_nil _).symm
  trans h h' := by
    rw [h', h, List.reverse_append, List.append_assoc]
  run c s := .inl (List.map_append ..)

theorem written_put {session : Session σ} {answer : Except Error Unit}
    (h : w.put session.minuted r (s, []) = (answer, w', s', said)) :
    w'.written = w.written + said.countP fun i => i.exchange.stores := by
  obtain ⟨count, ⟨news, hnews, hcount⟩, hwritten⟩ := (put_notes (notes_minuted session) w r
    ⟨[], (notes_minuted session).nothing (s, []), rfl⟩).stored
  rw [h] at hnews hwritten
  have hsaid : (said.map Interaction.exchange).countP Exchange.stores = count := by
    rw [show said.map Interaction.exchange = news.reverse from hnews, List.countP_reverse, hcount]
    exact Nat.zero_add _
  rw [List.countP_map] at hsaid
  rw [hwritten, ← hsaid]
  rfl

/-- What is put record after record is put by the consumer. -/
theorem putAll_consumer (session : Session σ) (rs : List Record) (w : Writer) (s : σ) :
    (consumer session).putAll rs (w, s)
      = ((deeds session rs w s).1.map (·.answer), (deeds session rs w s).2) := by
  induction rs generalizing w s with
  | nil => rfl
  | cons r rs ih =>
    have hput := put_embeds session.minuted_embeds w r (s, [])
    simp only [Consumer.putAll, consumer, deeds, List.map_cons] at hput ih ⊢
    rw [hput, ih]

/-- So far all is as it should be, and it stays so. -/
theorem keeps_deeds (session : Session σ) (rs : List Record) {past : List (String × Interaction)}
    (h : Keeps w past) (s : σ) :
    Keeps (deeds session rs w s).2.1 (past ++ spoken (deeds session rs w s).1) ∧
      (deeds session rs w s).2.1.mode = w.mode ∧
      (deeds session rs w s).2.1.written = w.written +
        (minutes (deeds session rs w s).1).countP fun i => i.exchange.stores := by
  induction rs generalizing w past s with
  | nil =>
    refine ⟨?_, rfl, rfl⟩
    show Keeps w (past ++ [])
    rwa [List.append_nil]
  | cons r rs ih =>
    obtain ⟨answer, w', s', said, after, hput, hutters, hw'⟩ := put_utters session w r s []
    rw [List.nil_append] at hput
    obtain ⟨hkeeps, hmode, hwritten⟩ := ih (h.put hutters hw') s'
    simp only [deeds, hput]
    refine ⟨?_, hmode.trans hw'.mode, ?_⟩
    · rw [List.append_assoc] at hkeeps
      exact hkeeps
    · rw [hwritten, written_put hput, Nat.add_assoc, minutes, minutes, List.flatMap_cons,
        List.countP_append]

theorem database?_of_settles {i : Interaction} (h : i.settles = true) :
    ∃ id, i.command.database? = some id := by
  obtain ⟨c, answer⟩ := i
  cases c with
  | catalog | databaseId => cases h
  | slotTable id | readRecord id | writeRecord id | addRecord id | deleteRecord id
  | clearDatabase id => exact ⟨id, rfl⟩

/-! ## Databases have ids of their own -/

/-- What is true of every command and its answer, as long as the state is as it should be, is true
of all that is said. -/
theorem forall_mem_deeds (session : Session σ) {P : σ → Prop} {Q : Interaction → Prop}
    (step : ∀ c s, P s → P (session.run c s).2 ∧ Q ⟨c, (session.run c s).1⟩) (rs : List Record)
    (w : Writer) (hs : P s) : ∀ i ∈ minutes (deeds session rs w s).1, Q i := by
  have hnotes : session.minuted.Notes fun _ s t =>
      P s.1 ∧ (∀ i ∈ s.2, Q i) → P t.1 ∧ ∀ i ∈ t.2, Q i :=
    { nothing := fun _ h => h
      trans := fun h h' hs => h' (h hs)
      run := fun c s => .inl fun ⟨hP, hQ⟩ => by
        obtain ⟨hP', hi⟩ := step c s.1 hP
        exact ⟨hP', List.forall_mem_append.mpr ⟨hQ, List.forall_mem_singleton.mpr hi⟩⟩ }
  induction rs generalizing w s with
  | nil => exact List.forall_mem_nil _
  | cons r rs ih =>
    obtain ⟨-, ⟨-, hput, -⟩, -⟩ := (put_notes hnotes w r ⟨[], hnotes.nothing (s, []), rfl⟩).stored
    obtain ⟨hP, hQ⟩ := hput ⟨hs, List.forall_mem_nil _⟩
    exact List.forall_mem_append.mpr ⟨hQ, ih _ hP⟩

/-- A device in memory looks up the database of this name. -/
theorem nameOf?_of_lookup {d : Device} {id : DatabaseId}
    (haddressable : d.databases.length < UInt32.size)
    (h : (d.execute (.databaseId name)).1 = .ok id) : d.nameOf? id = some name := by
  simp only [execute] at h
  split at h
  · rename_i i hi
    obtain rfl := Except.ok.inj h
    obtain ⟨hlt, hname, -⟩ := List.findIdx?_eq_some_iff_getElem.mp hi
    have hnat : (UInt32.ofNat (i + 1)).toNat = i + 1 := by
      rw [UInt32.toNat_ofNat']
      exact Nat.mod_eq_of_lt (Nat.lt_of_le_of_lt hlt haddressable)
    have hne : UInt32.ofNat (i + 1) ≠ 0 := by
      intro hzero
      rw [hzero] at hnat
      exact absurd hnat (Nat.succ_ne_zero i).symm
    rw [nameOf?, database?, if_neg hne, hnat, Nat.add_sub_cancel, List.getElem?_eq_getElem hlt]
    exact congrArg some (beq_iff_eq.mp hname)
  · cases h

/-- A device in memory gives no id to databases of different names. -/
theorem unshared_deeds {d : Device} (haddressable : d.databases.length < UInt32.size)
    (rs : List Record) (w : Writer) : Unshared (minutes (deeds Device.session rs w d).1) := by
  have hnamed := forall_mem_deeds Device.session
    (P := fun s => s.databases.map (·.name) = d.databases.map (·.name))
    (Q := fun i => ∀ name id, i = ⟨.databaseId name, .ok id⟩ → d.nameOf? id = some name)
    (fun c s hs => ⟨(names_execute s c).trans hs, fun name id hi => ?_⟩) rs w rfl
  · intro name other id hname hother
    exact Option.some.inj ((hnamed _ hname name id rfl).symm.trans (hnamed _ hother other id rfl))
  · obtain ⟨rfl, hanswer⟩ := Interaction.mk.inj hi
    rw [← nameOf?_congr hs]
    refine nameOf?_of_lookup ?_ (eq_of_heq hanswer)
    rwa [← List.length_map (·.name), hs, List.length_map]

/-! ## Whatever is put -/

/-- What a writer did is done with care. -/
structure Careful (mode : WriteMode) (ds : List Deed) (w : Writer) : Prop where
  /-- A slot is used that the device has just given for the id of the record, and nothing came
  between. -/
  fetched : Fetched (minutes ds)
  erasing : ∀ i ∈ minutes ds, i.isClear = true → mode = .eraseAll
  /-- A database that was cleared, or to which a record was sent, is not cleared any more. -/
  settled : (spoken ds).Pairwise fun p q => p.1 = q.1 → p.2.settles = true → q.2.isClear = false
  /-- The same by the ids of the databases. -/
  settledById : Unshared (minutes ds) → (minutes ds).Pairwise fun i j =>
    i.command.database? = j.command.database? → i.settles = true → j.isClear = false
  written : w.written = (minutes ds).countP fun i => i.exchange.stores

theorem Keeps.settledById {ds : List Deed} (h : Keeps w (spoken ds))
    (unshared : Unshared (minutes ds)) : (minutes ds).Pairwise fun i j =>
      i.command.database? = j.command.database? → i.settles = true → j.isClear = false := by
  rw [← map_snd_spoken] at unshared ⊢
  refine List.pairwise_map.mpr (h.settled.imp_of_mem ?_)
  intro p q hp hq hsettled hdatabase hsettles
  obtain ⟨id, hid⟩ := database?_of_settles hsettles
  have hlooked := List.mem_map_of_mem (f := Prod.snd) (h.addressed p hp id hid)
  have hlooked' := List.mem_map_of_mem (f := Prod.snd) (h.addressed q hq id (hdatabase ▸ hid))
  exact hsettled (unshared _ _ id hlooked hlooked') hsettles

/-- **No slot is used that may be out of date, and no database is cleared twice or behind a
record**, whatever is refused. -/
theorem careful_deeds (session : Session σ) (mode : WriteMode) (rs : List Record) (s : σ) :
    let (ds, w, t) := deeds session rs { mode } s
    (consumer session).putAll rs ({ mode }, s) = (ds.map (·.answer), w, t) ∧ Careful mode ds w := by
  refine ⟨putAll_consumer session rs { mode } s, ?_⟩
  obtain ⟨hkeeps, hmode, hwritten⟩ := keeps_deeds session rs (keeps_start mode) s
  rw [List.nil_append] at hkeeps
  have hfetched := hkeeps.fetched
  have herasing := hkeeps.erasing
  rw [map_snd_spoken] at hfetched
  refine ⟨hfetched, fun i hi hclear => ?_, hkeeps.settled, hkeeps.settledById, ?_⟩
  · rw [← map_snd_spoken] at hi
    obtain ⟨p, hp, rfl⟩ := List.mem_map.mp hi
    exact hmode.symm.trans (herasing p hp hclear)
  · rw [hwritten]
    exact Nat.zero_add _

end Writer

end Palmtop.Device
