import Palmtop.Proofs.Device.Minutes
import Palmtop.Proofs.Device.Reading
import Palmtop.Proofs.Device.Slots

/-! # A reader goes through its databases once

Whoever uses a reader asks for the next record, or gives up the database it is in, in any order and
as often as he likes.  Whatever the session refuses, what comes of it is a `Visit` to one database
after the other, in the order they were named: a visit is refused as a whole, or it reads the slots
of the table in order until the table is used up or the rest of it is skipped.  The next visit does
not begin before (`Reader.Covers`, `Reader.covers_ofNames`).
-/
namespace Palmtop.Device.Reader

variable {σ τ : Type}

/-! ## Calls -/

/-- What a reader can be told. -/
inductive Call where
  | next
  | skip
  deriving DecidableEq

/-- Makes these calls, and answers those for the next record. -/
def run (session : Session σ) :
    List Call → Reader → σ → List (Except Error (Option Record)) × Reader × σ
  | [], r, s => ([], r, s)
  | .next :: calls, r, s =>
    let (answer, r, s) := next session r s
    let (answers, r, s) := run session calls r s
    (answer :: answers, r, s)
  | .skip :: calls, r, s => run session calls r.skip s

theorem run_embeds {small : Session σ} {large : Session τ} {place : σ → τ}
    (h : small.Embeds large place) (calls : List Call) (r : Reader) (s : σ) :
    run large calls r (place s)
      = ((run small calls r s).1, (run small calls r s).2.1, place (run small calls r s).2.2) := by
  induction calls generalizing r s with
  | nil => rfl
  | cons call calls ih =>
    cases call with
    | skip => exact ih r.skip s
    | next => simp only [run, next_embeds h, ih]

/-! ## Visits -/

/-- What became of a database when the reader reached it. -/
inductive Entry where
  /-- It could not be looked up. -/
  | unknown (error : Error)
  /-- It was looked up, but its table could not be fetched. -/
  | refused (id : DatabaseId) (error : Error)
  /-- Its table was fetched; so many slots of it were read, with these answers. -/
  | entered (id : DatabaseId) (table : SlotTable) (answers : List (Except Error Record))

namespace Entry

/-- What its user was answered. -/
def answers : Entry → List (Except Error Record)
  | .unknown e => [.error e]
  | .refused _ e => [.error e]
  | .entered _ _ answers => answers

/-- The slots of the table that were not read. -/
def unread : Entry → List Slot
  | .unknown _ => []
  | .refused _ _ => []
  | .entered _ table answers => table.slots.drop answers.length

/-- The slots are in increasing order, and no more is read than there is. -/
def Fits : Entry → Prop
  | .unknown _ => True
  | .refused _ _ => True
  | .entered _ table answers =>
    table.slots.Pairwise (· < ·) ∧ answers.length ≤ table.slots.length

/-- The first of these slots are read, with these answers. -/
def readings (id : DatabaseId) (slots : List Slot) (answers : List (Except Error Record)) :
    List Interaction :=
  List.zipWith (fun slot answer => ⟨.readRecord id slot, answer⟩) slots answers

/-- What the session was told, and what it answered. -/
def minutes (name : String) : Entry → List Interaction
  | .unknown e => [⟨.databaseId name, .error e⟩]
  | .refused id e => [⟨.databaseId name, .ok id⟩, ⟨.slotTable id, .error e⟩]
  | .entered id table answers =>
    ⟨.databaseId name, .ok id⟩ :: ⟨.slotTable id, .ok table⟩ :: readings id table.slots answers

end Entry

/-- A visit to a database, and how often it was then given up. -/
structure Visit where
  name : String
  entry : Entry
  skips : Nat

/-- The calls of a visit. -/
def Visit.calls (v : Visit) : List Call :=
  .replicate v.entry.answers.length .next ++ .replicate v.skips .skip

/-- These calls to a reader over these databases come to these visits.  Before the first the reader
may be told to skip, which means nothing; and once the visits are over it has come to its end. -/
structure Covers (names : List String) (calls : List Call)
    (answers : List (Except Error (Option Record))) (r : Reader) (minutes : List Interaction)
    (idle : Nat) (visits : List Visit) (tail : List Call) : Prop where
  calls : calls = .replicate idle .skip ++ visits.flatMap Visit.calls ++ tail
  /-- The names come in order, and those not visited are still to come. -/
  names : names = visits.map (·.name) ++ r.databases
  fits : ∀ v ∈ visits, v.entry.Fits
  answers : answers = (visits.flatMap (·.entry.answers)).map (·.map some)
    ++ .replicate (tail.count .next) (.ok none)
  /-- Nothing is asked of the session but what the visits say. -/
  minutes : minutes = visits.flatMap fun v => v.entry.minutes v.name
  /-- A visit behind which the reader went on was complete, or given up. -/
  complete : ∀ before v after, visits = before ++ v :: after → after ≠ [] ∨ tail ≠ [] →
    v.entry.unread = [] ∨ 0 < v.skips
  /-- The end is found by asking on behind the last database. -/
  ended : r.ended = false ∧ tail = [] ∨
    r.ended = true ∧ r.databases = [] ∧ ∃ later, tail = .next :: later

/-- The same for a reader that is in a database, with these slots still to be read.  Those read
first, and then the visits to other databases. -/
structure Resumes (names : List String) (id : DatabaseId) (slots : List Slot) (calls : List Call)
    (answers : List (Except Error (Option Record))) (r : Reader) (minutes : List Interaction)
    (opening : List (Except Error Record)) (idle : Nat) (visits : List Visit) (tail : List Call) :
    Prop where
  fits : opening.length ≤ slots.length
  complete : visits ≠ [] ∨ tail ≠ [] → opening.length = slots.length ∨ 0 < idle
  covers : ∃ calls' answers' minutes', Covers names calls' answers' r minutes' idle visits tail ∧
    calls = .replicate opening.length .next ++ calls' ∧
    answers = opening.map (·.map some) ++ answers' ∧
    minutes = Entry.readings id slots opening ++ minutes'

section steps
variable {names : List String} {name : String} {id : DatabaseId} {slot : Slot} {slots : List Slot}
  {calls tail : List Call} {answer : Except Error Record}
  {answers : List (Except Error (Option Record))} {r : Reader} {minutes : List Interaction}
  {opening : List (Except Error Record)} {idle : Nat} {visits : List Visit}

/-- No database was visited yet, or there is none. -/
theorem covers_unvisited
    (h : r.ended = false ∧ tail = [] ∨
      r.ended = true ∧ r.databases = [] ∧ ∃ later, tail = .next :: later) :
    Covers r.databases tail (.replicate (tail.count .next) (.ok none)) r [] 0 [] tail where
  calls := rfl
  names := rfl
  fits := List.forall_mem_nil _
  answers := rfl
  minutes := rfl
  complete before v after heq := absurd heq.symm (by simp)
  ended := h

theorem Covers.skip (h : Covers names calls answers r minutes idle visits tail) :
    Covers names (.skip :: calls) answers r minutes (idle + 1) visits tail :=
  ⟨congrArg (Call.skip :: ·) h.calls, h.names, h.fits, h.answers, h.minutes, h.complete, h.ended⟩

/-- One more database in front. -/
theorem Covers.visit (h : Covers names calls answers r minutes idle visits tail) (name : String)
    (entry : Entry) (fits : entry.Fits)
    (complete : visits ≠ [] ∨ tail ≠ [] → entry.unread = [] ∨ 0 < idle) :
    Covers (name :: names) (.replicate entry.answers.length .next ++ calls)
      (entry.answers.map (·.map some) ++ answers) r (entry.minutes name ++ minutes) 0
      (⟨name, entry, idle⟩ :: visits) tail where
  calls := by
    rw [h.calls, List.flatMap_cons]
    simp [Visit.calls]
  names := congrArg (name :: ·) h.names
  fits := List.forall_mem_cons.mpr ⟨fits, h.fits⟩
  answers := by
    rw [h.answers, List.flatMap_cons]
    simp
  minutes := by
    rw [h.minutes, List.flatMap_cons]
  complete := by
    intro before v after heq hafter
    cases before with
    | nil =>
      obtain ⟨rfl, rfl⟩ := List.cons.inj heq
      exact complete hafter
    | cons w before =>
      exact h.complete before v after (List.cons.inj heq).2 hafter
  ended := h.ended

theorem Resumes.skip (h : Resumes names id [] calls answers r minutes opening idle visits tail) :
    Resumes names id slots (.skip :: calls) answers r minutes [] (idle + 1) visits tail := by
  obtain ⟨calls', answers', minutes', hcovers, rfl, rfl, rfl⟩ := h.covers
  obtain rfl := List.eq_nil_of_length_eq_zero (Nat.le_zero.mp h.fits)
  exact ⟨Nat.zero_le _, fun _ => .inr (Nat.succ_pos _), _, _, _, hcovers.skip, rfl, rfl, by
    simp [Entry.readings]⟩

theorem Resumes.read (h : Resumes names id slots calls answers r minutes opening idle visits tail) :
    Resumes names id (slot :: slots) (.next :: calls) (answer.map some :: answers) r
      (⟨.readRecord id slot, answer⟩ :: minutes) (answer :: opening) idle visits tail := by
  obtain ⟨calls', answers', minutes', hcovers, rfl, rfl, rfl⟩ := h.covers
  refine ⟨Nat.succ_le_succ h.fits, fun hmore => ?_, _, _, _, hcovers, rfl, rfl, rfl⟩
  exact (h.complete hmore).imp_left (congrArg (· + 1))

/-- Where no slot was left to be read, there were only the visits. -/
theorem Resumes.covers_of_nil
    (h : Resumes names id [] calls answers r minutes opening idle visits tail) :
    Covers names calls answers r minutes idle visits tail := by
  obtain ⟨calls', answers', minutes', hcovers, rfl, rfl, rfl⟩ := h.covers
  obtain rfl := List.eq_nil_of_length_eq_zero (Nat.le_zero.mp h.fits)
  exact hcovers

theorem Covers.resumes (h : Covers names calls answers r minutes idle visits tail)
    (id : DatabaseId) : Resumes names id [] calls answers r minutes [] idle visits tail :=
  ⟨Nat.le_refl 0, fun _ => .inl rfl, calls, answers, minutes, h, rfl, rfl, rfl⟩

/-- A database that could not be entered costs one answer. -/
theorem Covers.failed {e : Error} {entry : Entry} (hentry : entry.answers = [.error e])
    (fits : entry.Fits) (unread : entry.unread = [])
    (h : Covers names calls answers r minutes idle visits tail) :
    Covers (name :: names) (.next :: calls) (.error e :: answers) r
      (entry.minutes name ++ minutes) 0 (⟨name, entry, idle⟩ :: visits) tail := by
  have hvisit := h.visit name entry fits fun _ => .inl unread
  rw [hentry] at hvisit
  exact hvisit

/-- A database that was entered is read, as far as it goes. -/
theorem Resumes.entered {table : SlotTable}
    (h : Resumes names id table.slots calls answers r minutes opening idle visits tail) :
    Covers (name :: names) calls answers r
      (⟨.databaseId name, .ok id⟩ :: ⟨.slotTable id, .ok table⟩ :: minutes) 0
      (⟨name, .entered id table opening, idle⟩ :: visits) tail := by
  obtain ⟨calls', answers', minutes', hcovers, rfl, rfl, rfl⟩ := h.covers
  refine hcovers.visit name (.entered id table opening) ⟨Slots.keys_pairwise _, h.fits⟩ ?_
  intro hmore
  refine (h.complete hmore).imp_left fun hlength => ?_
  exact List.drop_eq_nil_of_le hlength.ge

end steps

/-! ## Every use of a reader -/

section run
variable {session : Session σ} {names : List String} {calls : List Call} {r : Reader} {s : σ}
  {past : List Interaction}

/-- The reader is in the database with this id, or in none, and these slots are still to be read. -/
structure IsAt (r : Reader) (names : List String) (id : DatabaseId) (slots : List Slot) : Prop where
  goes : r.ended = false
  databases : r.databases = names
  cursor : r.cursor = none ∧ slots = [] ∨ ∃ database, r.cursor = some ⟨database, id, slots⟩

theorem isAt_ofNames (names : List String) (id : DatabaseId) : (ofNames names).IsAt names id [] :=
  ⟨rfl, rfl, .inl ⟨rfl, rfl⟩⟩

theorem IsAt.skip {id : DatabaseId} {slots : List Slot} (h : r.IsAt names id slots) :
    r.skip.IsAt names id [] :=
  ⟨h.goes, h.databases, .inl ⟨rfl, rfl⟩⟩

theorem IsAt.isBetween {id : DatabaseId} (h : r.IsAt names id []) : r.IsBetween names := by
  refine ⟨h.goes, h.databases, fun c hc => ?_⟩
  rcases h.cursor with ⟨hnone, -⟩ | ⟨database, hsome⟩
  · rw [hnone] at hc
    cases hc
  · rw [hsome] at hc
    cases hc
    rfl

theorem run_next {answer : Except Error (Option Record)}
    {answers : List (Except Error (Option Record))} {r₁ r₂ : Reader} {s₁ s₂ : σ}
    (h : next session r s = (answer, r₁, s₁)) (rest : run session calls r₁ s₁ = (answers, r₂, s₂)) :
    run session (.next :: calls) r s = (answer :: answers, r₂, s₂) := by
  simp only [run, h, rest]

/-- A reader that goes on to the next database starts where a reader between two would. -/
theorem run_next_congr {r' : Reader} {s' : σ} (h : next session r s = next session r' s') :
    run session (.next :: calls) r s = run session (.next :: calls) r' s' := by
  simp only [run, h]

theorem run_ended (session : Session σ) (calls : List Call) (h : r.ended = true) (s : σ) :
    ∃ r', run session calls r s = (.replicate (calls.count .next) (.ok none), r', s) ∧
      r'.ended = true ∧ r'.databases = r.databases := by
  induction calls generalizing r with
  | nil => exact ⟨r, rfl, h, rfl⟩
  | cons call calls ih =>
    cases call with
    | skip => exact ih (r := r.skip) h
    | next =>
      obtain ⟨r', hrun, hended, hdatabases⟩ := ih h
      refine ⟨r', ?_, hended, hdatabases⟩
      have hnext : next session r s = (.ok none, r, s) := by rw [next, if_pos h]
      rw [List.count_cons_self, List.replicate_succ]
      exact run_next hnext hrun

/-- The calls from here on resume what the reader is in. -/
def Continues (session : Session σ) (calls : List Call) (r : Reader) (names : List String)
    (id : DatabaseId) (slots : List Slot) (s : σ) (past : List Interaction) : Prop :=
  ∃ answers r' s' minutes opening idle visits tail,
    run session.minuted calls r (s, past) = (answers, r', s', past ++ minutes) ∧
      Resumes names id slots calls answers r' minutes opening idle visits tail

/-- Reading the next slot. -/
theorem continues_read {id : DatabaseId} {slot : Slot} {slots : List Slot}
    (hr : r.IsAt names id (slot :: slots))
    (ih : ∀ r s past, r.IsAt names id slots → Continues session calls r names id slots s past) :
    Continues session (.next :: calls) r names id (slot :: slots) s past := by
  obtain ⟨database, hcursor⟩ : ∃ database, r.cursor = some ⟨database, id, slot :: slots⟩ :=
    hr.cursor.resolve_left fun h => List.cons_ne_nil _ _ h.2
  rcases hread : session.run (.readRecord id slot) s with ⟨answer, s₁⟩
  let r₁ : Reader := { databases := r.databases, cursor := some ⟨database, id, slots⟩ }
  have hnext : next session.minuted r (s, past)
      = (answer.map some, r₁, s₁, past ++ [⟨.readRecord id slot, answer⟩]) := by
    rw [next, hr.goes, if_neg Bool.false_ne_true, hcursor]
    simp only [Session.readRecord, Session.run_minuted hread]
    cases answer <;> rfl
  obtain ⟨answers, r₂, s₂, minutes, opening, idle, visits, tail, hrun, hresumes⟩ :=
    ih r₁ s₁ (past ++ [⟨.readRecord id slot, answer⟩]) ⟨rfl, hr.databases, .inr ⟨database, rfl⟩⟩
  rw [List.append_assoc] at hrun
  exact ⟨_, r₂, s₂, _, _, idle, visits, tail, run_next hnext hrun, hresumes.read⟩

/-- A database that cannot be entered, and what comes behind it. -/
theorem continues_failed {id : DatabaseId} {name : String} {e : Error} (entry : Entry) (s₁ : σ)
    (hnext : next session.minuted r (s, past)
      = (.error e, ofNames names, s₁, past ++ entry.minutes name))
    (hentry : entry.answers = [.error e]) (fits : entry.Fits) (unread : entry.unread = [])
    (ih : ∀ r s past, r.IsAt names id [] → Continues session calls r names id [] s past) :
    Continues session (.next :: calls) r (name :: names) id [] s past := by
  obtain ⟨answers, r₂, s₂, minutes, opening, idle, visits, tail, hrun, hresumes⟩ :=
    ih (ofNames names) s₁ (past ++ entry.minutes name) (isAt_ofNames names id)
  rw [List.append_assoc] at hrun
  exact ⟨_, r₂, s₂, _, [], 0, _, tail, run_next hnext hrun,
    (hresumes.covers_of_nil.failed hentry fits unread).resumes id⟩

/-- Entering the databases in turn. -/
theorem continues_advance {id : DatabaseId} (hr : r.IsAt names id [])
    (ih : ∀ r names id slots s past, r.IsAt names id slots →
      Continues session calls r names id slots s past) :
    Continues session (.next :: calls) r names id [] s past := by
  induction names generalizing r id s past with
  | nil =>
    have hnext : next session.minuted r (s, past)
        = (.ok none, { databases := [], ended := true }, s, past) :=
      next_between hr.isBetween (s, past)
    obtain ⟨r₁, hrun, hended, hdatabases⟩ := run_ended session.minuted calls
      (r := { databases := [], ended := true }) rfl (s, past)
    have hcovers : Covers r₁.databases (.next :: calls) _ r₁ [] 0 [] (.next :: calls) :=
      covers_unvisited (.inr ⟨hended, hdatabases, calls, rfl⟩)
    rw [hdatabases, List.count_cons_self, List.replicate_succ] at hcovers
    refine ⟨_, r₁, s, [], [], 0, [], .next :: calls, ?_, hcovers.resumes id⟩
    rw [List.append_nil]
    exact run_next hnext hrun
  | cons name names hnames =>
    have hadvance : next session.minuted r (s, past)
        = advance session.minuted (name :: names) (s, past) :=
      next_between hr.isBetween (s, past)
    rcases hlookup : session.run (.databaseId name) s with ⟨e | id', s₁⟩
    · refine continues_failed (.unknown e) s₁ (hadvance.trans ?_) rfl trivial rfl
        fun r s past => ih r names id [] s past
      simp only [advance, Session.databaseId, Session.run_minuted hlookup]
      rfl
    have hlooked := Session.run_minuted hlookup past
    rcases hfetch : session.run (.slotTable id') s₁ with ⟨e | table, s₂⟩
    · refine continues_failed (.refused id' e) s₂ (hadvance.trans ?_) rfl trivial
        rfl fun r s past => ih r names id [] s past
      simp only [advance, Session.databaseId, hlooked, Session.slotTable,
        Session.run_minuted hfetch, List.append_assoc]
      rfl
    -- the reader is now in the database, as if it had been put there
    have hfetched := Session.run_minuted hfetch (past ++ [⟨.databaseId name, .ok id'⟩])
    let r₁ : Reader := { databases := names, cursor := some ⟨name, id', table.slots⟩ }
    have hr₁ : r₁.IsAt names id' table.slots := ⟨rfl, rfl, .inr ⟨name, rfl⟩⟩
    have hin : ∀ slots past, r₁.IsAt names id' slots →
        Continues session (.next :: calls) r₁ names id' slots s₂ past := by
      intro slots past hslots
      cases slots with
      | nil => exact hnames hslots
      | cons slot slots => exact continues_read hslots fun r s past => ih r names id' slots s past
    obtain ⟨answers, r₂, s₃, minutes, opening, idle, visits, tail, hrun, hresumes⟩ :=
      hin table.slots _ hr₁
    refine ⟨_, r₂, s₃, _, [], 0, _, tail, ?_, hresumes.entered.resumes id⟩
    rw [run_next_congr (hadvance.trans (advance_cons hlooked hfetched)), hrun]
    simp

theorem continues (session : Session σ) (calls : List Call) {id : DatabaseId} {slots : List Slot}
    (hr : r.IsAt names id slots) (s : σ) (past : List Interaction) :
    Continues session calls r names id slots s past := by
  induction calls generalizing r names id slots s past with
  | nil =>
    have hcovers : Covers r.databases [] _ r [] 0 [] [] := covers_unvisited (.inl ⟨hr.goes, rfl⟩)
    rw [hr.databases] at hcovers
    refine ⟨[], r, s, [], [], 0, [], [], ?_, Nat.zero_le _, fun h => ?_, [], [], [], hcovers, rfl,
      rfl, ?_⟩
    · rw [List.append_nil]
      rfl
    · exact h.elim (absurd rfl) (absurd rfl)
    · rw [Entry.readings, List.zipWith_nil_right, List.append_nil]
  | cons call calls ih =>
    cases call with
    | skip =>
      obtain ⟨answers, r₁, s₁, minutes, opening, idle, visits, tail, hrun, hresumes⟩ :=
        ih hr.skip s past
      exact ⟨answers, r₁, s₁, minutes, [], idle + 1, visits, tail, hrun, hresumes.skip⟩
    | next =>
      cases slots with
      | nil => exact continues_advance hr fun _ _ _ _ s past hr => ih hr s past
      | cons slot slots => exact continues_read hr fun _ s past hr => ih hr s past

/-- The end was found if and only if some call was answered that there is nothing more. -/
theorem Covers.ended_iff {answers : List (Except Error (Option Record))}
    {minutes : List Interaction} {idle : Nat} {visits : List Visit} {tail : List Call}
    (h : Covers names calls answers r minutes idle visits tail) :
    r.ended = true ↔ .ok none ∈ answers := by
  have hvisits : (.ok none : Except Error (Option Record)) ∉
      (visits.flatMap (·.entry.answers)).map (·.map some) := by
    intro hmem
    obtain ⟨answer, -, hanswer⟩ := List.mem_map.mp hmem
    cases answer with
    | error e => cases hanswer
    | ok record => cases hanswer
  rw [h.answers, List.mem_append, or_iff_right hvisits, List.mem_replicate]
  rcases h.ended with ⟨hended, rfl⟩ | ⟨hended, -, later, rfl⟩
  · simp [hended]
  · simp [hended]

/-- Whoever skips nothing and asks on to the end is given every slot of every table. -/
theorem Covers.unread_eq_nil {answers : List (Except Error (Option Record))}
    {minutes : List Interaction} {idle : Nat} {visits : List Visit} {tail : List Call}
    (h : Covers names calls answers r minutes idle visits tail) (hcalls : .skip ∉ calls)
    (hended : r.ended = true) :
    visits.map (·.name) = names ∧ ∀ v ∈ visits, v.entry.unread = [] := by
  obtain ⟨-, hdatabases, later, htail⟩ : r.ended = true ∧ r.databases = [] ∧ _ :=
    h.ended.resolve_left fun hgoes => absurd (hgoes.1.symm.trans hended) Bool.false_ne_true
  constructor
  · rw [h.names, hdatabases, List.append_nil]
  · intro v hv
    obtain ⟨before, after, hvisits⟩ := List.append_of_mem hv
    have hmore : after ≠ [] ∨ tail ≠ [] := .inr (htail ▸ List.cons_ne_nil _ _)
    refine (h.complete before v after hvisits hmore).resolve_right fun hskips => hcalls ?_
    have hskip : Call.skip ∈ v.calls :=
      List.mem_append_right _ (List.mem_replicate.mpr ⟨hskips.ne', rfl⟩)
    rw [h.calls]
    exact List.mem_append_left _ (List.mem_append_right _ (List.mem_flatMap_of_mem hv hskip))

end run

/-- **A reader goes through its databases once**, whatever the session refuses and however it is
used.  A minuted session does what the session does. -/
theorem covers_ofNames (session : Session σ) (names : List String) (calls : List Call) (s : σ) :
    let (answers, r, t) := run session calls (ofNames names) s
    ∃ minutes idle visits tail,
      run session.minuted calls (ofNames names) (s, []) = (answers, r, t, minutes) ∧
      Covers names calls answers r minutes idle visits tail ∧
      (r.ended = true ↔ .ok none ∈ answers) ∧
      (.skip ∉ calls → r.ended = true →
        visits.map (·.name) = names ∧ ∀ v ∈ visits, v.entry.unread = []) := by
  obtain ⟨answers, r, t, minutes, opening, idle, visits, tail, hrun, hresumes⟩ :=
    continues session calls (isAt_ofNames names 0) s []
  have hplain := run_embeds session.minuted_embeds calls (ofNames names) (s, [])
  rw [hrun] at hplain
  rw [hplain]
  have hcovers := hresumes.covers_of_nil
  exact ⟨minutes, idle, visits, tail, hrun, hcovers, hcovers.ended_iff, hcovers.unread_eq_nil⟩

end Palmtop.Device.Reader
