import Palmtop.Device.Reader
import Palmtop.Device.Writer
import Palmtop.Proofs.Device.Transcript

/-! # What devices hear

A device *hears* commands: those it is given, whether it does them or refuses them, and those that
are refused on the way.  Meanwhile its settings may change, and its records only by what it hears
(`Heard`).  Who talks over a session that takes note of what is said (`Session.Notes`) is known by
it: a reader issues no command that changes a record (`Reader.next_notes`), a writer counts those of
its commands that wrote or added one (`Writer.put_notes`).  Nothing is assumed about which commands
are refused.
-/
namespace Palmtop.Device

/-! ## One device -/

/-- The names of the databases and their records, in the order of the catalog. -/
def holdings (d : Device) : List (String × Slots Record) :=
  d.databases.map fun db => (db.name, db.records)

/-- The exchange put a record into the device. -/
def Exchange.stores (e : Exchange) : Bool :=
  e.accepted && match e.command with
    | .writeRecord _ _ _ | .addRecord _ _ => true
    | _ => false

theorem Exchange.isMutation_of_stores {e : Exchange} (h : e.stores = true) :
    e.command.isMutation = true := by
  obtain ⟨c, ok⟩ := e
  cases c <;> simp_all [stores, Command.isMutation]

/-- What the device heard, the latest first, on its way from one state to another. -/
inductive Heard : Device → List Exchange → Device → Prop where
  | nothing (d : Device) : Heard d [] d
  | run {d d' : Device} {news : List Exchange} (c : Command) (before : Heard d news d') :
      Heard d (⟨c, accepted (d'.execute c).1⟩ :: news) (d'.run c).2
  /-- The command was refused on the way. -/
  | refused {d d' : Device} {news : List Exchange} (c : Command) (before : Heard d news d') :
      Heard d (⟨c, false⟩ :: news) (d'.logged ⟨c, false⟩)
  /-- Settings were changed. -/
  | changed {d d' d'' : Device} {news : List Exchange} (before : Heard d news d')
      (transcript : d''.transcript = d'.transcript) (holdings : d''.holdings = d'.holdings) :
      Heard d news d''

namespace Heard

variable {d d' d'' : Device} {news more : List Exchange}

theorem trans (h : Heard d news d') (h' : Heard d' more d'') : Heard d (more ++ news) d'' := by
  induction h' with
  | nothing => exact h
  | run c _ ih => exact ih.run c
  | refused c _ ih => exact ih.refused c
  | changed _ htranscript hholdings ih => exact ih.changed htranscript hholdings

theorem transcript (h : Heard d news d') : d'.transcript = news ++ d.transcript := by
  induction h with
  | nothing => rfl
  | run c _ ih =>
    rw [run_eq]
    exact congrArg _ ((transcript_execute _ c).trans ih)
  | refused c _ ih => exact congrArg _ ih
  | changed _ htranscript _ ih => exact htranscript.trans ih

/-- A device that heard of no change holds what it held. -/
theorem holdings_eq (h : Heard d news d') (quiet : ∀ e ∈ news, e.command.isMutation = false) :
    d'.holdings = d.holdings := by
  induction h with
  | nothing => rfl
  | run c _ ih =>
    obtain ⟨hc, hrest⟩ := List.forall_mem_cons.mp quiet
    rw [run_eq, execute_of_not_isMutation hc]
    exact ih hrest
  | refused c _ ih => exact ih (List.forall_mem_cons.mp quiet).2
  | changed _ _ hholdings ih => exact hholdings.trans (ih quiet)

end Heard

theorem names_of_holdings {d d' : Device} (h : d'.holdings = d.holdings) :
    d'.databases.map (·.name) = d.databases.map (·.name) := by
  have hnames := congrArg (List.map Prod.fst) h
  simpa [holdings, Function.comp_def] using hnames

/-- What setting a device up guarantees is a matter of what it holds. -/
theorem Proper.of_holdings {d d' : Device} (h : d.Proper) (hd : d'.holdings = d.holdings) :
    d'.Proper := by
  have hnames := names_of_holdings hd
  have hmem : ∀ db ∈ d'.databases, ∃ x ∈ d.databases, x.name = db.name ∧ x.records = db.records := by
    intro db hdb
    have : (db.name, db.records) ∈ d.holdings := hd ▸ List.mem_map_of_mem hdb
    obtain ⟨x, hx, heq⟩ := List.mem_map.mp this
    exact ⟨x, hx, (Prod.mk.inj heq).1, (Prod.mk.inj heq).2⟩
  constructor
  · exact hnames ▸ h.names
  · have hlength := congrArg List.length hnames
    rw [List.length_map, List.length_map] at hlength
    exact hlength ▸ h.addressable
  · intro db hdb
    obtain ⟨x, hx, -, hrecords⟩ := hmem db hdb
    have := h.uniqueIds x hx
    rwa [Database.uniqueIds, hrecords] at this
  · intro db hdb r hr
    obtain ⟨x, hx, hname, hrecords⟩ := hmem db hdb
    rw [← hname]
    exact h.owned x hx r (hrecords ▸ hr)

theorem Heard.proper {d d' : Device} {news : List Exchange} (h : Heard d news d')
    (quiet : ∀ e ∈ news, e.command.isMutation = false) (hd : d.Proper) : d'.Proper :=
  hd.of_holdings (h.holdings_eq quiet)

/-! ## Talking over a session -/

/-- What is said over the session is noted: `U news s s'` that it led from one state to another, the
latest first.  A command that gets nowhere is not noted. -/
structure Session.Notes {σ : Type} (session : Session σ) (U : List Exchange → σ → σ → Prop) :
    Prop where
  nothing : ∀ s, U [] s s
  trans : ∀ {s t u news more}, U news s t → U more t u → U (more ++ news) s u
  run : ∀ c s, U [⟨c, accepted (session.run c s).1⟩] s (session.run c s).2 ∨
    accepted (session.run c s).1 = false ∧ U [] s (session.run c s).2

/-- From one state to another with nothing said that changes records. -/
def Quietly {σ : Type} (U : List Exchange → σ → σ → Prop) (s t : σ) : Prop :=
  ∃ news, U news s t ∧ ∀ e ∈ news, e.command.isMutation = false

/-- From one state to another with so many records stored. -/
def Storing {σ : Type} (U : List Exchange → σ → σ → Prop) (n : Nat) (s t : σ) : Prop :=
  ∃ news, U news s t ∧ news.countP Exchange.stores = n

section notes

variable {σ : Type} {session : Session σ} {U : List Exchange → σ → σ → Prop} {s t t' : σ} {n : Nat}

namespace Session.Notes

variable {c : Command} {answer : Except Error c.Answer}

/-- A command that changes no record. -/
theorem look (h : session.Notes U) (before : Quietly U s t) (hrun : session.run c t = (answer, t'))
    (hc : c.isMutation = false) : Quietly U s t' := by
  obtain ⟨news, hnews, quiet⟩ := before
  have hnoted := h.run c t
  rw [hrun] at hnoted
  rcases hnoted with hnoted | ⟨-, hnoted⟩
  · exact ⟨_, h.trans hnews hnoted, List.forall_mem_cons.mpr ⟨hc, quiet⟩⟩
  · exact ⟨_, h.trans hnews hnoted, quiet⟩

/-- A command that stores nothing, as it is another or is refused. -/
theorem pass (h : session.Notes U) (before : Storing U n s t)
    (hrun : session.run c t = (answer, t'))
    (hc : Exchange.stores ⟨c, accepted answer⟩ = false) : Storing U n s t' := by
  obtain ⟨news, hnews, rfl⟩ := before
  have hnoted := h.run c t
  rw [hrun] at hnoted
  rcases hnoted with hnoted | ⟨-, hnoted⟩
  · exact ⟨_, h.trans hnews hnoted, List.countP_cons_of_neg (by simp [hc])⟩
  · exact ⟨_, h.trans hnews hnoted, rfl⟩

/-- A writing or adding that is accepted. -/
theorem store (h : session.Notes U) (before : Storing U n s t)
    (hrun : session.run c t = (answer, t'))
    (hc : Exchange.stores ⟨c, accepted answer⟩ = true) : Storing U (n + 1) s t' := by
  obtain ⟨news, hnews, rfl⟩ := before
  have hnoted := h.run c t
  rw [hrun] at hnoted
  rcases hnoted with hnoted | ⟨hrefused, -⟩
  · exact ⟨_, h.trans hnews hnoted, List.countP_cons_of_pos hc⟩
  · have hrefused : accepted answer = false := hrefused
    simp [Exchange.stores, hrefused] at hc

end Session.Notes

namespace Reader

theorem advance_notes (h : session.Notes U) (names : List String) (before : Quietly U s t) :
    Quietly U s (advance session names t).2.2 := by
  induction names generalizing t with
  | nil => exact before
  | cons name names ih =>
    unfold advance
    split
    · rename_i hid
      exact h.look before hid rfl
    rename_i hid
    have hlooked := h.look before hid rfl
    split
    · rename_i htable
      exact h.look hlooked htable rfl
    rename_i htable
    have hfetched := h.look hlooked htable rfl
    split
    · exact ih hfetched
    dsimp only
    split
    · rename_i hrecord
      exact h.look hfetched hrecord rfl
    · rename_i hrecord
      exact h.look hfetched hrecord rfl

/-- A reader issues no command that changes a record. -/
theorem next_notes (h : session.Notes U) (r : Reader) (before : Quietly U s t) :
    Quietly U s (next session r t).2.2 := by
  unfold next
  split
  · exact before
  split
  · dsimp only
    split
    · rename_i hrecord
      exact h.look before hrecord rfl
    · rename_i hrecord
      exact h.look before hrecord rfl
  · exact advance_notes h _ before

end Reader

namespace Writer

variable {w w' : Writer} {name : String}

theorem reach_notes (h : session.Notes U) (before : Storing U n s t)
    {answer : Except Error Target} (hrun : w.reach session name t = (answer, w', t')) :
    Storing U n s t' ∧ w'.written = w.written := by
  unfold reach at hrun
  split at hrun
  · cases hrun
    exact ⟨before, rfl⟩
  split at hrun
  · rename_i hid
    cases hrun
    exact ⟨h.pass before hid rfl, rfl⟩
  rename_i hid
  have hlooked := h.pass before hid rfl
  split at hrun
  · split at hrun
    · rename_i hclear
      cases hrun
      exact ⟨h.pass hlooked hclear rfl, rfl⟩
    · rename_i hclear
      cases hrun
      exact ⟨h.pass hlooked hclear rfl, rfl⟩
  · split at hrun
    · rename_i htable
      cases hrun
      exact ⟨h.pass hlooked htable rfl, rfl⟩
    · rename_i htable
      cases hrun
      exact ⟨h.pass hlooked htable rfl, rfl⟩

theorem freshTarget_notes (h : session.Notes U) (before : Storing U n s t)
    {answer : Except Error Target} (hrun : w.freshTarget session name t = (answer, w', t')) :
    Storing U n s t' ∧ w'.written = w.written := by
  unfold freshTarget at hrun
  split at hrun
  · rename_i hreach
    cases hrun
    exact reach_notes h before hreach
  rename_i hreach
  obtain ⟨hreached, hwritten⟩ := reach_notes h before hreach
  split at hrun
  · split at hrun
    · rename_i htable
      cases hrun
      exact ⟨h.pass hreached htable rfl, hwritten⟩
    · rename_i htable
      cases hrun
      exact ⟨h.pass hreached htable rfl, hwritten⟩
  · cases hrun
    exact ⟨hreached, hwritten⟩

/-- A writer that had counted so many counts what was stored, and that was nothing if it answers with
an error. -/
structure Counts (U : List Exchange → σ → σ → Prop) (n : Nat) (s : σ) (count : Nat)
    (result : Except Error Unit × Writer × σ) : Prop where
  stored : ∃ m, Storing U (n + m) s result.2.2 ∧ result.2.1.written = count + m
  refused : accepted result.1 = false → result.2.1.written = count

/-- A mutation is counted if it was accepted. -/
theorem afterMutation_notes (h : session.Notes U) (before : Storing U n s t) {c : Command}
    {result : Except Error Unit × σ} {answer : Except Error c.Answer}
    (hresult : session.run c t = (answer, result.2))
    (hc : Exchange.stores ⟨c, accepted answer⟩ = accepted result.1) :
    Counts U n s w.written (w.afterMutation result) := by
  obtain ⟨_ | _, t'⟩ := result
  · exact ⟨⟨0, h.pass before hresult hc, rfl⟩, fun _ => rfl⟩
  · exact ⟨⟨1, h.store before hresult hc, rfl⟩, nofun⟩

/-- A writer counts the records it stored. -/
theorem put_notes (h : session.Notes U) (w : Writer) (r : Record) (before : Storing U n s t) :
    Counts U n s w.written (w.put session r t) := by
  unfold put
  split
  · rename_i hreach
    obtain ⟨hreached, hwritten⟩ := freshTarget_notes h before hreach
    exact ⟨⟨0, hreached, hwritten⟩, fun _ => hwritten⟩
  rename_i target w₁ t₁ hreach
  obtain ⟨hreached, hwritten⟩ := freshTarget_notes h before hreach
  have hadd (new : Target) (x : Record) : Counts U n s w₁.written
      ((w₁.setTarget r.database new).afterMutation (session.addRecord target.id x t₁)) :=
    afterMutation_notes (w := w₁.setTarget r.database new) h hreached
      (c := .addRecord target.id x) rfl (Bool.and_true _)
  rw [← hwritten]
  split
  · exact ⟨⟨0, hreached, rfl⟩, nofun⟩
  · exact afterMutation_notes (w := w₁.setTarget _ _) h hreached
      (c := .writeRecord target.id _ r) rfl (Bool.and_true _)
  · exact hadd _ _
  · exact hadd _ _

end Writer
end notes

end Palmtop.Device
