import Palmtop.Proofs.Archive.Cursor

/-! # Reading as walking along a list

A `Walker` reads a list of members in the plainest way.  It has no record in hand: asked for the
database of the next record it looks into the list and stays where it is.  It drops the members it
does not want without looking at their size, delivers each wanted one as a record or as an error,
and from a skip on drops the rest of the current database until a record has been delivered.

A cursor, which reads ahead and remembers what it has read, cannot be told from a walker by any
calls in any order (`Cursor.readsAs_walker`).  From then on the laws of looking ahead and of the end
are laws of walkers.  The cursor `Tracks` the walker: the members that the walker still wants are
the record in hand, if there is one, and those among the members behind it.
-/
namespace Palmtop.Archive

/-! ## Calls -/

/-- What a reader of records can be asked. -/
inductive Call where
  | next
  /-- The database of the next record. -/
  | peek
  /-- The database of the record delivered last. -/
  | current
  /-- Pass over the rest of the current database. -/
  | skip
  /-- Has the end been seen? -/
  | atEnd
  deriving DecidableEq

/-- What a reader answers. -/
inductive Answer where
  | record (answer : Except Error (Option Record))
  | database (answer : Except Error (Option String))
  | current (database : Option String)
  | skipped
  | ended (seen : Bool)

namespace Answer

/-- Whether the answer is about records, and not about the end. -/
def isHeard : Answer → Bool
  | .ended _ => false
  | _ => true

/-- An answer of a reader that has seen the end. -/
def IsFinal : Answer → Prop
  | .record answer => answer = .ok none
  | .database answer => answer = .ok none
  | .ended seen => seen = true
  | .current _ | .skipped => True

end Answer

/-- The answers to these calls, one after the other, and the state behind them. -/
def askAll {σ : Type} (ask : Call → σ → Answer × σ) : List Call → σ → List Answer × σ
  | [], s => ([], s)
  | call :: calls, s =>
    let (answer, s) := ask call s
    let (answers, s) := askAll ask calls s
    (answer :: answers, s)

/-- What a cursor answers to a call. -/
def Cursor.ask (call : Call) (c : Cursor) : Answer × Cursor :=
  match call with
  | .next => c.next.map .record id
  | .peek => c.peek.map .database id
  | .current => (.current c.current, c)
  | .skip => (.skipped, c.skip)
  | .atEnd => (.ended c.atEnd, c)

/-! ## Walkers -/

/-- A reader that walks along a list of members. -/
structure Walker where
  /-- The members not yet walked past. -/
  members : List Tar.Member
  /-- The list breaks off behind them. -/
  broken : Bool
  /-- The databases wanted; all if there is no filter. -/
  filter : Option (List String)
  /-- The database of the record delivered last, unless it was skipped since. -/
  current : Option String := none
  /-- The database whose members are dropped until a record is delivered. -/
  dropping : Option String := none
  /-- A call has come to the end. -/
  ended : Bool := false

namespace Walker

/-- A walker at the start of an archive. -/
def ofContents (contents : Tar.Contents) (filter : Option (List String)) : Walker :=
  { members := contents.members, broken := contents.broken, filter }

/-- Whether a member is the entry of a database that is to be delivered.  Its size plays no part. -/
def wants (w : Walker) (m : Tar.Member) : Bool :=
  match Cursor.entry? m with
  | some name => passes w.filter name.database && w.dropping != some name.database
  | none => false

/-- The members from the first one wanted on. -/
def ahead (w : Walker) : List Tar.Member := w.members.dropWhile fun m => !w.wants m

/-- What a wanted member is delivered as. -/
def delivery (m : Tar.Member) : Except Error Record :=
  match Cursor.entry? m with
  | some name =>
    if m.data.size = m.size ∧ m.size ≤ maxPayload then
      .ok ⟨name.database, name.uniqueId, name.recordType, m.data⟩
    else .error .invalidData
  | none => .error .invalidData

/-- Walks past the next wanted member and delivers it. -/
def next (w : Walker) : Except Error (Option Record) × Walker :=
  match w.ahead with
  | m :: members =>
    match delivery m with
    | .ok record =>
      (.ok (some record), { w with members, current := some record.database, dropping := none })
    | .error e => (.error e, { w with members })
  | [] =>
    if w.broken then (.error .invalidData, { w with members := [], broken := false })
    else (.ok none, { w with ended := true })

/-- The database of what is next.  Only an error is walked past. -/
def peek (w : Walker) : Except Error (Option String) × Walker :=
  match w.next with
  | (.ok (some record), _) => (.ok (some record.database), w)
  | (.ok none, w) => (.ok none, w)
  | (.error e, w) => (.error e, w)

/-- Drops the rest of the current database. -/
def skip (w : Walker) : Walker :=
  match w.current with
  | some database => { w with current := none, dropping := some database }
  | none => w

/-- What a walker answers to a call. -/
def ask (call : Call) (w : Walker) : Answer × Walker :=
  match call with
  | .next => w.next.map .record id
  | .peek => w.peek.map .database id
  | .current => (.current w.current, w)
  | .skip => (.skipped, w.skip)
  | .atEnd => (.ended w.ended, w)

/-! ## Laws of walkers -/

variable {w w' : Walker}

/-- Dropping more drops first what was dropped before. -/
theorem dropWhile_dropWhile {α : Type} {p q : α → Bool} (h : ∀ a, p a = true → q a = true)
    (as : List α) : (as.dropWhile p).dropWhile q = as.dropWhile q := by
  induction as with
  | nil => rfl
  | cons a as ih =>
    by_cases hp : p a = true
    · rw [List.dropWhile_cons_of_pos hp, List.dropWhile_cons_of_pos (h a hp), ih]
    · rw [List.dropWhile_cons_of_neg hp]

/-- What comes next is wanted. -/
theorem wants_of_ahead {m : Tar.Member} {members : List Tar.Member} (h : w.ahead = m :: members) :
    w.wants m = true := by
  have hhead := List.head?_dropWhile_not (fun m => !w.wants m) w.members
  rw [← ahead, h] at hhead
  simpa using hhead

theorem delivery_eq {m : Tar.Member} {name : EntryName} (h : Cursor.entry? m = some name) :
    delivery m = Cursor.recordOf name m := by
  simp only [delivery, h, Cursor.recordOf]
  by_cases hfits : m.data.size = m.size ∧ m.size ≤ maxPayload
  · rw [if_pos hfits, if_neg (by omega)]
  · rw [if_neg hfits, if_pos (by omega)]

/-- A record delivered is of the database of its entry. -/
theorem database_of_delivery {m : Tar.Member} {r : Record} (h : delivery m = .ok r) :
    ∃ name, Cursor.entry? m = some name ∧ r.database = name.database := by
  unfold delivery at h
  split at h
  · rename_i name hentry
    split at h
    · cases h
      exact ⟨name, hentry, rfl⟩
    · cases h
  · cases h

/-- From a skip on, the members of the current database are dropped too. -/
theorem wants_skip {database : String} (hcurrent : w.current = some database)
    (hdropping : w.dropping = none) {m : Tar.Member} {name : EntryName}
    (hentry : Cursor.entry? m = some name) :
    w.skip.wants m = (w.wants m && name.database != database) := by
  have hnone : (none != some name.database) = true := rfl
  simp only [wants, skip, hcurrent, hentry, hdropping, hnone, Bool.and_true]
  rw [bne, bne, Option.some_beq_some, Bool.beq_comm]

theorem wants_of_wants_skip {database : String} (hcurrent : w.current = some database)
    (hdropping : w.dropping = none) {m : Tar.Member} (h : (!w.wants m) = true) :
    (!w.skip.wants m) = true := by
  rw [Bool.not_eq_true'] at h ⊢
  cases hentry : Cursor.entry? m with
  | none => simp only [wants, hentry]
  | some name =>
    rw [wants_skip hcurrent hdropping hentry, h, Bool.false_and]

theorem ahead_skip {database : String} (hcurrent : w.current = some database)
    (hdropping : w.dropping = none) :
    w.skip.ahead = w.ahead.dropWhile fun m => !w.skip.wants m := by
  have hmembers : w.skip.members = w.members := by simp only [skip, hcurrent]
  rw [ahead, hmembers]
  exact (dropWhile_dropWhile (fun _ => wants_of_wants_skip hcurrent hdropping) w.members).symm

theorem next_of_ahead_eq_nil (h : w.ahead = []) (hbroken : w.broken = false) :
    w.next = (.ok none, { w with ended := true }) := by
  simp only [next, h, hbroken, Bool.false_eq_true, if_false]

/-- The walker at which nothing is next is at the end, and has seen it from then on. -/
theorem ahead_of_next_eq_none (h : w.next = (.ok none, w')) :
    w.ahead = [] ∧ w.broken = false ∧ w' = { w with ended := true } := by
  unfold next at h
  split at h
  · split at h <;> cases h
  · rename_i hahead
    split at h
    · cases h
    · rename_i hbroken
      cases h
      exact ⟨hahead, eq_false_of_ne_true hbroken, rfl⟩

/-- A peek that finds something leaves the walker where it is: a second one finds the same, and so
does the next call. -/
theorem peek_of_peek {database : Option String} (h : w.peek = (.ok database, w')) :
    w'.peek = (.ok database, w') ∧
      ∃ record, w'.next.1 = .ok record ∧ record.map (·.database) = database := by
  rcases hnext : w.next with ⟨e | _ | r, v⟩
  · simp only [peek, hnext] at h
    cases h
  · simp only [peek, hnext] at h
    cases h
    obtain ⟨hahead, hbroken, rfl⟩ := ahead_of_next_eq_none hnext
    have hagain := next_of_ahead_eq_nil (w := { w with ended := true }) hahead hbroken
    exact ⟨by simp only [peek, hagain], none, by rw [hagain], rfl⟩
  · simp only [peek, hnext] at h
    cases h
    exact ⟨by simp only [peek, hnext], some r, by rw [hnext], rfl⟩

/-- Calls that take nothing leave a walker that was peeked at where it is. -/
theorem askAll_idle {database : Option String} (h : w.peek = (.ok database, w))
    {idle : List Call} (hidle : ∀ call ∈ idle, call ≠ .next ∧ call ≠ .skip) :
    (askAll ask idle w).2 = w := by
  induction idle with
  | nil => rfl
  | cons call idle ih =>
    obtain ⟨hcall, hidle⟩ := List.forall_mem_cons.mp hidle
    have hstays : (ask call w).2 = w := by
      cases call with
      | next => exact absurd rfl hcall.1
      | skip => exact absurd rfl hcall.2
      | peek => exact congrArg Prod.snd h
      | current => rfl
      | atEnd => rfl
    change (askAll ask idle (ask call w).2).2 = w
    rw [hstays]
    exact ih hidle

/-- Whether the end has been seen plays no part in walking on. -/
theorem next_ended (w : Walker) (seen : Bool) : ∃ seen',
    next { w with ended := seen } = (w.next.1, { w.next.2 with ended := seen' }) := by
  have hahead : ahead { w with ended := seen } = w.ahead := rfl
  simp only [next, hahead]
  cases w.ahead with
  | cons m members =>
    dsimp only
    cases delivery m with
    | ok record => exact ⟨seen, rfl⟩
    | error e => exact ⟨seen, rfl⟩
  | nil =>
    dsimp only
    split
    · exact ⟨seen, rfl⟩
    · exact ⟨true, rfl⟩

theorem skip_ended (w : Walker) (seen : Bool) :
    skip { w with ended := seen } = { w.skip with ended := seen } := by
  obtain ⟨members, broken, filter, _ | database, dropping, ended⟩ := w
  · rfl
  · rfl

/-- It shows in nothing but the answer to that question. -/
theorem ask_ended (call : Call) (w : Walker) (seen : Bool) : ∃ seen',
    (ask call { w with ended := seen }).2 = { (ask call w).2 with ended := seen' } ∧
      [(ask call { w with ended := seen }).1].filter (·.isHeard)
        = [(ask call w).1].filter (·.isHeard) := by
  obtain ⟨seen', hnext⟩ := next_ended w seen
  cases call with
  | next => exact ⟨seen', by simp only [ask, hnext, Prod.map, id], by simp only [ask, hnext, Prod.map]⟩
  | peek =>
    simp only [ask, peek, hnext]
    rcases w.next with ⟨e | _ | r, v⟩
    · exact ⟨seen', rfl, rfl⟩
    · exact ⟨seen', rfl, rfl⟩
    · exact ⟨seen, rfl, rfl⟩
  | current => exact ⟨seen, rfl, rfl⟩
  | skip => exact ⟨seen, skip_ended w seen, rfl⟩
  | atEnd => exact ⟨seen, rfl, rfl⟩

/-- Two walkers of which one may have seen the end give the same answers but to that question. -/
theorem heard_ended (calls : List Call) (w : Walker) (seen : Bool) :
    (askAll ask calls { w with ended := seen }).1.filter (·.isHeard)
      = (askAll ask calls w).1.filter (·.isHeard) := by
  induction calls generalizing w seen with
  | nil => rfl
  | cons call calls ih =>
    obtain ⟨seen', hstate, hanswer⟩ := ask_ended call w seen
    simp only [askAll]
    rw [hstate, ← List.singleton_append, List.filter_append, hanswer, ih, ← List.filter_append,
      List.singleton_append]

/-- A peek that finds something is not noticed but by the question for the end. -/
theorem heard_of_peek {database : Option String} (h : w.peek = (.ok database, w'))
    (calls : List Call) : (askAll ask calls w').1.filter (·.isHeard)
      = (askAll ask calls w).1.filter (·.isHeard) := by
  rcases hnext : w.next with ⟨e | _ | r, v⟩
  · simp only [peek, hnext] at h
    cases h
  · simp only [peek, hnext] at h
    cases h
    obtain ⟨-, -, rfl⟩ := ahead_of_next_eq_none hnext
    exact heard_ended calls w true
  · simp only [peek, hnext] at h
    cases h
    rfl

/-- A walker that has seen the end stays there. -/
theorem ask_of_ended (hended : w.ended = true) (hahead : w.ahead = []) (hbroken : w.broken = false)
    (call : Call) : (ask call w).1.IsFinal ∧ (ask call w).2.ended = true := by
  have hnext := next_of_ahead_eq_nil hahead hbroken
  cases call with
  | next => simp only [ask, hnext, Prod.map, Answer.IsFinal, id, and_self]
  | peek => simp only [ask, peek, hnext, Prod.map, Answer.IsFinal, id, and_self]
  | current => exact ⟨trivial, hended⟩
  | skip =>
    refine ⟨trivial, ?_⟩
    simp only [ask, skip]
    split <;> exact hended
  | atEnd => exact ⟨hended, hended⟩

end Walker

/-! ## A cursor and a walker -/

namespace Cursor

/-- The cursor and the walker stand at the same place. -/
structure Tracks (c : Cursor) (w : Walker) : Prop where
  filter : c.filter = w.filter
  broken : c.broken = w.broken
  current : c.current = w.current
  dropping : c.skipping = w.dropping
  ended : c.ended = w.ended
  /-- A database is dropped from between two records on. -/
  between : w.dropping = none ∨ w.current = none
  /-- What the walker still wants comes from the cursor's hand and from the members behind it. -/
  ahead : match c.peeked with
    | none => w.ahead = c.members.dropWhile fun m => !w.wants m
    | some record => ∃ m, w.ahead = m :: c.members ∧ Walker.delivery m = .ok record
  exhausted : w.ended = true → w.ahead = [] ∧ w.broken = false

variable {c : Cursor} {w : Walker}

theorem tracks_ofContents (contents : Tar.Contents) (filter : Option (List String)) :
    (ofContents contents filter).Tracks (.ofContents contents filter) :=
  ⟨rfl, rfl, rfl, rfl, rfl, Or.inl rfl, rfl, nofun⟩

namespace Tracks

theorem wanted (h : c.Tracks w) (database : String) :
    c.wanted database = (passes w.filter database && w.dropping != some database) := by
  rw [Cursor.wanted, h.dropping, h.filter, Bool.and_comm]
  rfl

/-- With nothing in hand, the cursor finds what the walker finds. -/
theorem seek (h : c.Tracks w) (ms : List Tar.Member) :
    Cursor.seek c.wanted ms = match ms.dropWhile fun m => !w.wants m with
      | m :: rest => some (Walker.delivery m, rest)
      | [] => none := by
  induction ms with
  | nil => rfl
  | cons m ms ih =>
    cases hentry : entry? m with
    | none =>
      have hwants : w.wants m = false := by simp only [Walker.wants, hentry]
      rw [List.dropWhile_cons_of_pos (by rw [hwants]; rfl), ← ih]
      simp only [Cursor.seek, hentry]
    | some name =>
      have hwants : w.wants m = c.wanted name.database := by
        rw [h.wanted]
        simp only [Walker.wants, hentry]
      simp only [Cursor.seek, hentry]
      by_cases hw : c.wanted name.database = true
      · rw [if_pos hw, List.dropWhile_cons_of_neg (by rw [hwants, hw]; decide)]
        exact congrArg (fun answer => some (answer, ms)) (Walker.delivery_eq hentry).symm
      · rw [if_neg hw, List.dropWhile_cons_of_pos (by rw [hwants, eq_false_of_ne_true hw]; rfl), ih]

/-- With nothing in hand, the cursor pulls what is next for the walker, and an error brings both
behind it. -/
theorem pull (h : c.Tracks w) (hpeeked : c.peeked = none) :
    (∃ m members r, w.ahead = m :: members ∧ Walker.delivery m = .ok r ∧
      c.pull = (.ok (some r), { c with members })) ∨
    (w.ahead = [] ∧ w.broken = false ∧
      c.pull = (.ok none, { c with members := [], ended := true })) ∨
    ∃ e, w.next.1 = .error e ∧ c.pull.1 = .error e ∧ c.pull.2.Tracks w.next.2 := by
  have hahead := h.ahead
  rw [hpeeked] at hahead
  have hseek := h.seek c.members
  rw [← hahead] at hseek
  cases hw : w.ahead with
  | cons m members =>
    simp only [hw] at hseek
    cases hm : Walker.delivery m with
    | ok r =>
      rw [hm] at hseek
      exact Or.inl ⟨m, members, r, rfl, hm, by simp only [Cursor.pull, hseek]⟩
    | error e =>
      rw [hm] at hseek
      refine Or.inr (Or.inr ⟨e, by simp only [Walker.next, hw, hm],
        by simp only [Cursor.pull, hseek], ?_⟩)
      have hgoing : w.ended ≠ true := fun hended => by
        rw [(h.exhausted hended).1] at hw
        cases hw
      simp only [Cursor.pull, hseek, Walker.next, hw, hm]
      refine ⟨h.filter, h.broken, h.current, h.dropping, h.ended, h.between, ?_,
        fun hended => absurd hended hgoing⟩
      rw [hpeeked]
      rfl
  | nil =>
    simp only [hw] at hseek
    cases hbroken : w.broken with
    | false =>
      refine Or.inr (Or.inl ⟨rfl, rfl, ?_⟩)
      simp only [Cursor.pull, hseek, h.broken, hbroken, Bool.false_eq_true, if_false]
    | true =>
      refine Or.inr (Or.inr ⟨.invalidData, by simp only [Walker.next, hw, hbroken, if_true],
        by simp only [Cursor.pull, hseek, h.broken, hbroken, if_true], ?_⟩)
      simp only [Cursor.pull, hseek, h.broken, hbroken, Walker.next, hw, if_true]
      refine ⟨h.filter, rfl, h.current, h.dropping, h.ended, h.between, ?_, fun _ => ⟨rfl, rfl⟩⟩
      rw [hpeeked]
      rfl

/-- Both have come to the end. -/
theorem toEnd (h : c.Tracks w) (hahead : w.ahead = []) (hbroken : w.broken = false)
    (hpeeked : c.peeked = none) :
    Tracks { c with members := [], ended := true } { w with ended := true } := by
  refine ⟨h.filter, h.broken, h.current, h.dropping, rfl, h.between, ?_, fun _ => ⟨hahead, hbroken⟩⟩
  rw [hpeeked]
  exact hahead

/-- The cursor has the record in hand that is next for the walker. -/
theorem hold (h : c.Tracks w) {m : Tar.Member} {members : List Tar.Member} {r : Record}
    (hahead : w.ahead = m :: members) (hm : Walker.delivery m = .ok r) :
    Tracks { c with members, peeked := some r } w where
  filter := h.filter
  broken := h.broken
  current := h.current
  dropping := h.dropping
  ended := h.ended
  between := h.between
  ahead := ⟨m, hahead, hm⟩
  exhausted := h.exhausted

/-- Both have delivered the record. -/
theorem deliver (h : c.Tracks w) {m : Tar.Member} {members : List Tar.Member} {r : Record}
    (hahead : w.ahead = m :: members) :
    Tracks (Cursor.taken { c with members, peeked := none } r)
      { w with members, current := some r.database, dropping := none } := by
  have hgoing : w.ended ≠ true := fun hended => by
    rw [(h.exhausted hended).1] at hahead
    cases hahead
  have hexhausted (v : Walker) (hv : v.ended = w.ended) :
      v.ended = true → v.ahead = [] ∧ v.broken = false :=
    fun hended => absurd (hv.symm.trans hended) hgoing
  unfold Cursor.taken
  split
  · rename_i hcurrent
    change c.current = some r.database at hcurrent
    have hdropping : c.skipping = none :=
      h.dropping.trans (h.between.resolve_right (by rw [← h.current, hcurrent]; exact nofun))
    exact ⟨h.filter, h.broken, hcurrent, hdropping, h.ended, Or.inl rfl, rfl, hexhausted _ rfl⟩
  · exact ⟨h.filter, h.broken, rfl, rfl, h.ended, Or.inl rfl, rfl, hexhausted _ rfl⟩

theorem next (h : c.Tracks w) : c.next.1 = w.next.1 ∧ c.next.2.Tracks w.next.2 := by
  cases hpeeked : c.peeked with
  | some r =>
    have hahead := h.ahead
    rw [hpeeked] at hahead
    obtain ⟨m, hahead, hm⟩ := hahead
    simp only [Cursor.next, hpeeked, Walker.next, hahead, hm]
    exact ⟨trivial, h.deliver hahead⟩
  | none =>
    rcases h.pull hpeeked with ⟨m, members, r, hahead, hm, hpull⟩ | ⟨hahead, hbroken, hpull⟩ |
      ⟨e, hnext, hpull, htracks⟩
    · simp only [Cursor.next, hpeeked, hpull, Walker.next, hahead, hm]
      exact ⟨trivial, h.deliver hahead⟩
    · simp only [Cursor.next, hpeeked, hpull, Walker.next_of_ahead_eq_nil hahead hbroken]
      exact ⟨trivial, hpeeked ▸ h.toEnd hahead hbroken hpeeked⟩
    · have hsplit : c.pull = (.error e, c.pull.2) := Prod.ext hpull rfl
      simp only [Cursor.next, hpeeked]
      rw [hsplit]
      exact ⟨hnext.symm, htracks⟩

theorem peek (h : c.Tracks w) : c.peek.1 = w.peek.1 ∧ c.peek.2.Tracks w.peek.2 := by
  cases hpeeked : c.peeked with
  | some r =>
    have hahead := h.ahead
    rw [hpeeked] at hahead
    obtain ⟨m, hahead, hm⟩ := hahead
    simp only [Cursor.peek, hpeeked, Walker.peek, Walker.next, hahead, hm]
    exact ⟨trivial, h⟩
  | none =>
    rcases h.pull hpeeked with ⟨m, members, r, hahead, hm, hpull⟩ | ⟨hahead, hbroken, hpull⟩ |
      ⟨e, hnext, hpull, htracks⟩
    · simp only [Cursor.peek, hpeeked, hpull, Walker.peek, Walker.next, hahead, hm]
      exact ⟨rfl, h.hold hahead hm⟩
    · simp only [Cursor.peek, hpeeked, hpull, Walker.peek,
        Walker.next_of_ahead_eq_nil hahead hbroken]
      exact ⟨rfl, hpeeked ▸ h.toEnd hahead hbroken hpeeked⟩
    · have hsplit : c.pull = (.error e, c.pull.2) := Prod.ext hpull rfl
      have hsplit' : w.next = (.error e, w.next.2) := Prod.ext hnext rfl
      simp only [Cursor.peek, hpeeked, Walker.peek]
      rw [hsplit, hsplit']
      exact ⟨rfl, htracks⟩

/-- Dropping the rest of a database, both drop the same members. -/
theorem ahead_skip (h : c.Tracks w) {database : String} (hcurrent : w.current = some database)
    (hdropping : w.dropping = none) :
    match c.peeked.filter fun record => record.database != database with
    | none => w.skip.ahead = c.members.dropWhile fun m => !w.skip.wants m
    | some record => ∃ m, w.skip.ahead = m :: c.members ∧ Walker.delivery m = .ok record := by
  have hahead := h.ahead
  rw [Walker.ahead_skip hcurrent hdropping]
  cases hpeeked : c.peeked with
  | none =>
    rw [hpeeked] at hahead
    rw [hahead]
    exact Walker.dropWhile_dropWhile (fun _ => Walker.wants_of_wants_skip hcurrent hdropping) _
  | some r =>
    rw [hpeeked] at hahead
    obtain ⟨m, hw, hm⟩ := hahead
    obtain ⟨name, hentry, hr⟩ := Walker.database_of_delivery hm
    have hwants := Walker.wants_skip hcurrent hdropping hentry
    rw [Walker.wants_of_ahead hw, Bool.true_and, ← hr] at hwants
    -- the record in hand is dropped with the others of its database
    cases he : r.database != database with
    | true =>
      have hkept : Option.filter (fun record : Record => record.database != database) (some r)
          = some r := Option.filter_some_pos he
      rw [hkept, hw, List.dropWhile_cons_of_neg (by rw [hwants, he]; decide)]
      exact ⟨m, rfl, hm⟩
    | false =>
      have hgone : Option.filter (fun record : Record => record.database != database) (some r)
          = none := Option.filter_some_neg he
      rw [hgone, hw, List.dropWhile_cons_of_pos (by rw [hwants, he]; rfl)]

theorem skip (h : c.Tracks w) : c.skip.Tracks w.skip := by
  cases hcurrent : w.current with
  | none =>
    simp only [Cursor.skip, h.current, Walker.skip, hcurrent]
    exact h
  | some database =>
    have hdropping : w.dropping = none := h.between.resolve_right (by simp [hcurrent])
    have hahead := h.ahead_skip hcurrent hdropping
    have hexhausted : w.ended = true → w.skip.ahead = [] := fun hended => by
      rw [Walker.ahead_skip hcurrent hdropping, (h.exhausted hended).1]
      rfl
    simp only [Walker.skip, hcurrent] at hahead hexhausted ⊢
    simp only [Cursor.skip, h.current, hcurrent]
    exact ⟨h.filter, h.broken, rfl, rfl, h.ended, Or.inr rfl, hahead,
      fun hended => ⟨hexhausted hended, (h.exhausted hended).2⟩⟩

/-- A cursor with a record in hand has not come to the end. -/
theorem atEnd (h : c.Tracks w) : c.atEnd = w.ended := by
  rw [Cursor.atEnd, h.ended]
  cases hended : w.ended with
  | false => rfl
  | true =>
    have hahead := h.ahead
    cases hpeeked : c.peeked with
    | none => rfl
    | some r =>
      rw [hpeeked, (h.exhausted hended).1] at hahead
      obtain ⟨m, hm, -⟩ := hahead
      cases hm

/-- The two answer the same and go on together. -/
theorem ask (h : c.Tracks w) (call : Call) :
    (Cursor.ask call c).1 = (Walker.ask call w).1 ∧
      (Cursor.ask call c).2.Tracks (Walker.ask call w).2 := by
  cases call with
  | next => exact ⟨congrArg Answer.record h.next.1, h.next.2⟩
  | peek => exact ⟨congrArg Answer.database h.peek.1, h.peek.2⟩
  | current => exact ⟨congrArg Answer.current h.current, h⟩
  | skip => exact ⟨rfl, h.skip⟩
  | atEnd => exact ⟨congrArg Answer.ended h.atEnd, h⟩

theorem askAll (h : c.Tracks w) (calls : List Call) :
    (Archive.askAll Cursor.ask calls c).1 = (Archive.askAll Walker.ask calls w).1 ∧
      (Archive.askAll Cursor.ask calls c).2.Tracks (Archive.askAll Walker.ask calls w).2 := by
  induction calls generalizing c w with
  | nil => exact ⟨rfl, h⟩
  | cons call calls ih =>
    obtain ⟨hanswer, hnext⟩ := h.ask call
    obtain ⟨hanswers, hlast⟩ := ih hnext
    exact ⟨congrArg₂ List.cons hanswer hanswers, hlast⟩

/-- Behind the end there is nothing. -/
theorem final (h : c.Tracks w) (hended : w.ended = true) (calls : List Call) :
    ∀ answer ∈ (Archive.askAll Cursor.ask calls c).1, answer.IsFinal := by
  induction calls generalizing c w with
  | nil => exact nofun
  | cons call calls ih =>
    obtain ⟨hanswer, hnext⟩ := h.ask call
    obtain ⟨hfinal, hended'⟩ :=
      Walker.ask_of_ended hended (h.exhausted hended).1 (h.exhausted hended).2 call
    exact List.forall_mem_cons.mpr ⟨hanswer ▸ hfinal, ih hnext hended'⟩

end Tracks

/-! ## The two readers -/

/-- The cursor answers what the walker answers; looking ahead is silent and tells the truth; and the
end, once seen, is the end. -/
structure ReadsAs (c : Cursor) (w : Walker) : Prop where
  /-- Whatever it is asked, and in whatever order. -/
  answers : ∀ calls, (askAll ask calls c).1 = (askAll Walker.ask calls w).1
  /-- A peek that finds something is noticed by no later call but the question for the end. -/
  silent : ∀ before database c', (askAll ask before c).2.peek = (.ok database, c') → ∀ later,
    (askAll ask later c').1.filter (·.isHeard)
      = (askAll ask later (askAll ask before c).2).1.filter (·.isHeard)
  /-- It names the database of the next record, or that there is none. -/
  names : ∀ before database c', (askAll ask before c).2.peek = (.ok database, c') → ∀ idle,
    (∀ call ∈ idle, call ≠ .next ∧ call ≠ .skip) →
    ∃ record, (askAll ask idle c').2.next.1 = .ok record ∧ record.map (·.database) = database
  /-- Behind the end there is no record, no database and no error. -/
  final : ∀ before, (askAll ask before c).2.atEnd = true → ∀ later,
    ∀ answer ∈ (askAll ask later (askAll ask before c).2).1, answer.IsFinal

theorem Tracks.readsAs (h : c.Tracks w) : c.ReadsAs w where
  answers calls := (h.askAll calls).1
  silent before database c' hpeek later := by
    obtain ⟨-, hthere⟩ := h.askAll before
    obtain ⟨hfound, hbehind⟩ := hthere.peek
    rw [hpeek] at hfound hbehind
    rw [(hbehind.askAll later).1, (hthere.askAll later).1]
    exact Walker.heard_of_peek (Prod.ext hfound.symm rfl) later
  names before database c' hpeek idle hidle := by
    obtain ⟨-, hthere⟩ := h.askAll before
    obtain ⟨hfound, hbehind⟩ := hthere.peek
    rw [hpeek] at hfound hbehind
    obtain ⟨hagain, hnext⟩ := Walker.peek_of_peek (Prod.ext hfound.symm rfl)
    rw [(hbehind.askAll idle).2.next.1, Walker.askAll_idle hagain hidle]
    exact hnext
  final before hend later := by
    obtain ⟨-, hthere⟩ := h.askAll before
    exact hthere.final (hthere.atEnd.symm.trans hend) later

/-- **A cursor is a walk along a list.**  For every archive and every filter, whatever a cursor is
asked, it answers as if it had walked along the members one by one. -/
theorem readsAs_walker (contents : Tar.Contents) (filter : Option (List String)) :
    (ofContents contents filter).ReadsAs (.ofContents contents filter) :=
  (tracks_ofContents contents filter).readsAs

end Cursor

end Palmtop.Archive
