import Palmtop.Handoff

/-! # Both halves of a handoff

The two halves of a handoff are held by two parties, and anybody may raise the flag that ends a wait;
which of them moves next is left open.  A `Handoff.Meeting` is the handoff, the flag and where each
party stands, and `Meeting.step` one move:

* Answering takes two moves.  The value is offered to the slot, and then the half goes away; instead,
  it may go away at once.  Both together are `Handoff.answer` (`Unhindered.whole`).
* A wait that heeds the flag looks at it first and at the slot in another move, with what it saw of
  the flag; between the two, everything may have changed.  If it gets nothing, it starts again.

The invariant is `Meeting.Sound`: until the waiting half has returned, the slot holds what was
offered and nothing else.  So no order of moves loses an answer (`Meeting.waits`).
-/
namespace Palmtop.Handoff

variable {α : Type}

/-- What comes of offering a value. -/
inductive Offer where
  | taken
  /-- There is a value already. -/
  | full
  /-- The waiting half is gone. -/
  | deserted
  deriving DecidableEq

/-- Offers a value to the slot, which takes it if it is empty and somebody waits. -/
def offer (h : Handoff α) (value : α) : Offer × Handoff α :=
  if h.waiting then
    match h.slot with
    | some _ => (.full, h)
    | none => (.taken, { h with slot := some value })
  else (.deserted, h)

/-- Where the party with the answering half stands. -/
inductive Answerer (α : Type) where
  | holding
  /-- About to offer the value. -/
  | offering (value : α)
  /-- The value was offered, and the half is about to go away. -/
  | leaving (value : α) (offer : Offer)
  /-- The half is gone, with the value offered or without any. -/
  | gone (value : Option α)

/-- The value that was offered. -/
def Answerer.answer? : Answerer α → Option α
  | .holding | .offering _ => none
  | .leaving value _ => some value
  | .gone value => value

/-- Where the party with the waiting half stands. -/
inductive Waiter (α : Type) where
  /-- In a wait that takes no notice of the flag. -/
  | waiting
  /-- About to look at the flag. -/
  | looking
  /-- About to look into the slot, the flag having been seen raised or not. -/
  | receiving (cancelled : Bool)
  | returned (result : Option α)

/-- A handoff, the flag that ends a wait, and both parties. -/
structure Meeting (α : Type) where
  handoff : Handoff α := {}
  cancelled : Bool := false
  answerer : Answerer α := .holding
  waiter : Waiter α

/-- What can happen next. -/
inductive Move (α : Type) where
  /-- The party with the answering half starts to answer. -/
  | answer (value : α)
  /-- It lets the half go without an answer, on purpose or because it failed. -/
  | drop
  /-- It goes on with its answer. -/
  | proceed
  /-- The party with the waiting half goes on with its wait. -/
  | wait
  /-- Somebody raises the flag. -/
  | cancel

namespace Meeting

/-- The meeting with what a wait got; one that got nothing goes on at the place named. -/
def settle (m : Meeting α) (got : Option (Option α)) (again : Waiter α) : Meeting α :=
  match got with
  | none => { m with waiter := again }
  | some result => { m with handoff := m.handoff.leave, waiter := .returned result }

/-- The meeting after one move. -/
def step (m : Meeting α) : Move α → Meeting α
  | .answer value =>
    match m.answerer with
    | .holding => { m with answerer := .offering value }
    | _ => m
  | .drop =>
    match m.answerer with
    | .holding => { m with handoff := m.handoff.drop, answerer := .gone none }
    | _ => m
  | .proceed =>
    match m.answerer with
    | .offering value =>
      let (offer, handoff) := m.handoff.offer value
      { m with handoff, answerer := .leaving value offer }
    | .leaving value _ => { m with handoff := m.handoff.drop, answerer := .gone (some value) }
    | _ => m
  | .wait =>
    match m.waiter with
    | .waiting => m.settle m.handoff.wait .waiting
    | .looking => { m with waiter := .receiving m.cancelled }
    | .receiving cancelled => m.settle (m.handoff.waitOrCancel cancelled) .looking
    | .returned _ => m
  | .cancel => { m with cancelled := true }

/-- The meeting after these moves, one after the other. -/
def after (m : Meeting α) (moves : List (Move α)) : Meeting α := moves.foldl step m

/-- The value delivered by a move. -/
def delivers? (m : Meeting α) (move : Move α) : Option α :=
  match m.waiter, (m.step move).waiter with
  | .returned _, _ => none
  | _, .returned result => result
  | _, _ => none

/-- The values delivered in the course of these moves. -/
def delivered (m : Meeting α) : List (Move α) → List α
  | [] => []
  | move :: moves => (m.delivers? move).toList ++ (m.step move).delivered moves

/-! ## The invariant -/

/-- The two halves are there as long as their parties hold them, and until the waiting half has
returned the slot holds what was offered. -/
structure Sound (m : Meeting α) : Prop where
  answering : m.handoff.answering = false ↔ ∃ value, m.answerer = .gone value
  waiting : m.handoff.waiting = false ↔ ∃ result, m.waiter = .returned result
  slot : m.handoff.waiting = true → m.handoff.slot = m.answerer.answer?
  emptied : m.handoff.waiting = false → m.handoff.slot = none
  /-- The slot was never full. -/
  offered : ∀ value offer, m.answerer = .leaving value offer → offer ≠ .full
  /-- The flag is never lowered. -/
  seen : m.waiter = .receiving true → m.cancelled = true
  result : ∀ value, m.waiter = .returned (some value) → m.answerer.answer? = some value

variable {m : Meeting α} {value : α} {value? : Option α}

theorem sound_start (waiter : Waiter α) (h : waiter = .waiting ∨ waiter = .looking) :
    Sound { waiter } := by
  rcases h with rfl | rfl
  · exact ⟨by simp, by simp, fun _ => rfl, nofun, nofun, nofun, nofun⟩
  · exact ⟨by simp, by simp, fun _ => rfl, nofun, nofun, nofun, nofun⟩

/-- Nothing is in the slot before something is offered. -/
theorem Sound.offer_eq (h : m.Sound) (ha : m.answerer.answer? = none) (value : α) :
    m.handoff.offer value = if m.handoff.waiting
      then (.taken, { m.handoff with slot := some value }) else (.deserted, m.handoff) := by
  unfold offer
  split
  · rename_i hw
    rw [h.slot hw, ha]
  · rfl

/-- As long as the waiting half is there, its party has not returned. -/
theorem Sound.here (h : m.Sound) (hw : ∀ result, m.waiter ≠ .returned result) :
    m.handoff.waiting = true := by
  cases hhere : m.handoff.waiting with
  | true => rfl
  | false =>
    obtain ⟨result, hresult⟩ := h.waiting.mp hhere
    exact absurd hresult (hw result)

/-! ## What a wait gets -/

/-- It gets a value exactly if this was offered. -/
theorem Sound.wait_eq_value_iff (h : m.Sound) (hw : m.handoff.waiting = true) :
    m.handoff.wait = some (some value) ↔ m.answerer.answer? = some value := by
  rw [Handoff.wait, h.slot hw]
  cases m.answerer.answer? with
  | some v => simp
  | none =>
    dsimp only
    split
    · simp
    · simp

/-- It gets nothing exactly if the answering half went away with nothing offered. -/
theorem Sound.wait_eq_nothing_iff (h : m.Sound) (hw : m.handoff.waiting = true) :
    m.handoff.wait = some none ↔ m.answerer = .gone none := by
  rw [Handoff.wait, h.slot hw]
  constructor
  · intro hnone
    split at hnone
    · cases hnone
    rename_i hanswer
    split at hnone
    · cases hnone
    rename_i hanswering
    obtain ⟨v, hgone⟩ := h.answering.mp (eq_false_of_ne_true hanswering)
    rw [hgone] at hanswer
    exact hgone.trans (congrArg _ hanswer)
  · intro hgone
    have hanswering := h.answering.mpr ⟨none, hgone⟩
    simp [hgone, Answerer.answer?, hanswering]

/-- A value that was offered is got however the flag was seen. -/
theorem Sound.waitOrCancel_of_answer (h : m.Sound) (hw : m.handoff.waiting = true)
    (ha : m.answerer.answer? = some value) (cancelled : Bool) :
    m.handoff.waitOrCancel cancelled = some (some value) := by
  unfold Handoff.waitOrCancel
  split
  · rw [h.slot hw, ha]
  · exact (h.wait_eq_value_iff hw).mpr ha

theorem Sound.waitOrCancel_eq_value (h : m.Sound) (hw : m.handoff.waiting = true)
    {cancelled : Bool} (hgot : m.handoff.waitOrCancel cancelled = some (some value)) :
    m.answerer.answer? = some value := by
  unfold Handoff.waitOrCancel at hgot
  split at hgot
  · rw [← h.slot hw]
    exact Option.some.inj hgot
  · exact (h.wait_eq_value_iff hw).mp hgot

/-! ## Every move keeps it -/

theorem Sound.settle (h : m.Sound) (hw : ∀ result, m.waiter ≠ .returned result)
    {got : Option (Option α)} {again : Waiter α} (hagain : again = .waiting ∨ again = .looking)
    (hgot : ∀ value, got = some (some value) → m.answerer.answer? = some value) :
    (m.settle got again).Sound := by
  have hhere := h.here hw
  cases got with
  | none =>
    obtain ⟨hanswering, -, hslot, hemptied, hoffered, -, -⟩ := h
    rcases hagain with rfl | rfl
    · exact ⟨hanswering, by simp [Meeting.settle, hhere], hslot, hemptied, hoffered, nofun, nofun⟩
    · exact ⟨hanswering, by simp [Meeting.settle, hhere], hslot, hemptied, hoffered, nofun, nofun⟩
  | some result =>
    refine ⟨h.answering, by simp [Meeting.settle, leave], nofun, fun _ => rfl, h.offered, nofun, ?_⟩
    rintro value ⟨⟩
    exact hgot value rfl

theorem Sound.drop (h : m.Sound) (hoffered : m.answerer.answer? = value?) :
    Sound { m with handoff := m.handoff.drop, answerer := .gone value? } :=
  ⟨by simp [Handoff.drop], h.waiting, fun hw => (h.slot hw).trans hoffered, h.emptied, nofun, h.seen,
    fun v hv => hoffered ▸ h.result v hv⟩

theorem Sound.step (h : m.Sound) (move : Move α) : (m.step move).Sound := by
  cases move with
  | answer value =>
    unfold Meeting.step
    dsimp only
    split
    · rename_i ha
      have hanswer : m.answerer.answer? = none := by rw [ha]; rfl
      refine ⟨?_, h.waiting, fun hw => (h.slot hw).trans hanswer, h.emptied, nofun, h.seen,
        fun v hv => ?_⟩
      · rw [h.answering, ha]
        simp
      · rw [h.result v hv] at hanswer
        cases hanswer
    · exact h
  | drop =>
    unfold Meeting.step
    dsimp only
    split
    · rename_i ha
      exact h.drop (by rw [ha]; rfl)
    · exact h
  | proceed =>
    unfold Meeting.step
    dsimp only
    split
    · rename_i value ha
      have hanswer : m.answerer.answer? = none := by rw [ha]; rfl
      have hanswering : m.handoff.answering ≠ false := by simp [h.answering, ha]
      have hresult (v : α) : m.waiter ≠ .returned (some v) := fun hv => by
        rw [h.result v hv] at hanswer
        cases hanswer
      rw [h.offer_eq hanswer]
      split
      · rename_i hw
        exact ⟨by simpa using hanswering, h.waiting, fun _ => rfl, by simp [hw], by simp, h.seen,
          fun v hv => absurd hv (hresult v)⟩
      · rename_i hw
        exact ⟨by simpa using hanswering, h.waiting, fun h' => absurd h' hw, h.emptied, by simp,
          h.seen, fun v hv => absurd hv (hresult v)⟩
    · rename_i value offer ha
      exact h.drop (by rw [ha]; rfl)
    · exact h
  | wait =>
    unfold Meeting.step
    dsimp only
    split
    · rename_i hw
      have hw' : ∀ result, m.waiter ≠ .returned result := by simp [hw]
      exact h.settle hw' (Or.inl rfl) fun v hv => (h.wait_eq_value_iff (h.here hw')).mp hv
    · rename_i hw
      have hhere := h.here (by simp [hw])
      refine ⟨h.answering, by simp [hhere], h.slot, h.emptied, h.offered, ?_, nofun⟩
      exact Waiter.receiving.inj
    · rename_i cancelled hw
      have hw' : ∀ result, m.waiter ≠ .returned result := by simp [hw]
      exact h.settle hw' (Or.inr rfl) fun v hv => h.waitOrCancel_eq_value (h.here hw') hv
    · exact h
  | cancel => exact ⟨h.answering, h.waiting, h.slot, h.emptied, h.offered, fun _ => rfl, h.result⟩

/-! ## What moves leave as it is -/

@[simp] theorem answerer_settle (m : Meeting α) (got : Option (Option α)) (again : Waiter α) :
    (m.settle got again).answerer = m.answerer := by
  cases got <;> rfl

@[simp] theorem cancelled_settle (m : Meeting α) (got : Option (Option α)) (again : Waiter α) :
    (m.settle got again).cancelled = m.cancelled := by
  cases got <;> rfl

/-- Only going on with the wait changes where it is. -/
theorem waiter_step (m : Meeting α) {move : Move α} (h : move ≠ .wait) :
    (m.step move).waiter = m.waiter := by
  cases move with
  | wait => exact absurd rfl h
  | cancel => rfl
  | answer value =>
    unfold Meeting.step
    dsimp only
    split <;> rfl
  | drop | proceed =>
    unfold Meeting.step
    dsimp only
    split <;> rfl

/-- A party that is through with its half does nothing more. -/
theorem waiter_of_returned {result : Option α} (h : m.waiter = .returned result) (move : Move α) :
    (m.step move).waiter = .returned result := by
  by_cases hmove : move = .wait
  · rw [hmove, Meeting.step, h]
    exact h
  · rw [m.waiter_step hmove, h]

theorem answerer_of_gone (h : m.answerer = .gone value?) (move : Move α) :
    (m.step move).answerer = .gone value? := by
  cases move with
  | answer | drop | proceed =>
    unfold Meeting.step
    rw [h]
    exact h
  | cancel => exact h
  | wait =>
    unfold Meeting.step
    dsimp only
    split <;> simp [h]

theorem cancelled_step (h : m.cancelled = true) (move : Move α) :
    (m.step move).cancelled = true := by
  cases move with
  | cancel => rfl
  | answer | drop | proceed | wait =>
    unfold Meeting.step
    dsimp only
    split <;> simp [h]

/-! ## Both kinds of wait -/

/-- A wait that takes no notice of the flag gets nothing only when no answer can come. -/
structure Steady (m : Meeting α) : Prop extends Sound m where
  waiter : m.waiter = .waiting ∨ ∃ result, m.waiter = .returned result
  nothing : m.waiter = .returned none → m.answerer = .gone none

/-- A wait that heeds the flag gets nothing then, or once the flag is raised. -/
structure Heedful (m : Meeting α) : Prop extends Sound m where
  waiter : m.waiter ≠ .waiting
  nothing : m.waiter = .returned none → m.answerer = .gone none ∨ m.cancelled = true

theorem step_of_waiting (h : m.waiter = .waiting) :
    m.step .wait = m.settle m.handoff.wait .waiting := by
  rw [Meeting.step, h]

theorem step_of_looking (h : m.waiter = .looking) :
    m.step .wait = { m with waiter := .receiving m.cancelled } := by
  rw [Meeting.step, h]

theorem step_of_receiving {cancelled : Bool} (h : m.waiter = .receiving cancelled) :
    m.step .wait = m.settle (m.handoff.waitOrCancel cancelled) .looking := by
  rw [Meeting.step, h]

/-- A wait returns what it gets. -/
theorem waiter_settle_iff {got : Option (Option α)} {again : Waiter α} {result : Option α}
    (hagain : ∀ r, again ≠ .returned r) :
    (m.settle got again).waiter = .returned result ↔ got = some result := by
  cases got with
  | none => simp [Meeting.settle, hagain]
  | some r => simp [Meeting.settle]

/-- A result that is there stays, and so does the reason there is none. -/
theorem nothing_step {move : Move α} (hmove : move ≠ .wait ∨ ∃ r, m.waiter = .returned r)
    (h : (m.step move).waiter = .returned none) : m.waiter = .returned none := by
  rcases hmove with hmove | ⟨r, hr⟩
  · rwa [m.waiter_step hmove] at h
  · rw [waiter_of_returned hr] at h
    rw [hr, h]

theorem Steady.step (h : m.Steady) (move : Move α) : (m.step move).Steady := by
  have hkept (hmove : move ≠ .wait ∨ ∃ r, m.waiter = .returned r)
      (hnone : (m.step move).waiter = .returned none) : (m.step move).answerer = .gone none :=
    answerer_of_gone (h.nothing (nothing_step hmove hnone)) move
  rcases h.waiter with hw | ⟨r, hr⟩
  · by_cases hmove : move = .wait
    · have hhere := h.here (by simp [hw])
      subst hmove
      refine ⟨h.toSound.step _, ?_, fun hnone => ?_⟩
      · rw [step_of_waiting hw]
        cases m.handoff.wait with
        | none => exact Or.inl rfl
        | some r => exact Or.inr ⟨r, rfl⟩
      · rw [step_of_waiting hw, waiter_settle_iff (by simp), h.wait_eq_nothing_iff hhere] at hnone
        rw [step_of_waiting hw, answerer_settle, hnone]
    · exact ⟨h.toSound.step _, Or.inl ((m.waiter_step hmove).trans hw), hkept (Or.inl hmove)⟩
  · exact ⟨h.toSound.step _, Or.inr ⟨r, waiter_of_returned hr move⟩, hkept (Or.inr ⟨r, hr⟩)⟩

/-- A wait that heeds the flag looks into the slot a last time with the flag raised. -/
theorem Heedful.nothing_of_receiving (h : m.Heedful) {cancelled : Bool}
    (hw : m.waiter = .receiving cancelled) (hgot : m.handoff.waitOrCancel cancelled = some none) :
    m.answerer = .gone none ∨ m.cancelled = true := by
  cases cancelled with
  | false =>
    rw [Handoff.waitOrCancel, if_neg (by decide), h.wait_eq_nothing_iff (h.here (by simp [hw]))]
      at hgot
    exact Or.inl hgot
  | true => exact Or.inr (h.seen hw)

theorem Heedful.step (h : m.Heedful) (move : Move α) : (m.step move).Heedful := by
  have hkept (hmove : move ≠ .wait ∨ ∃ r, m.waiter = .returned r)
      (hnone : (m.step move).waiter = .returned none) :
      (m.step move).answerer = .gone none ∨ (m.step move).cancelled = true :=
    (h.nothing (nothing_step hmove hnone)).imp (answerer_of_gone · move) (cancelled_step · move)
  by_cases hmove : move = .wait
  · subst hmove
    cases hw : m.waiter with
    | waiting => exact absurd hw h.waiter
    | looking =>
      rw [step_of_looking hw]
      exact ⟨step_of_looking hw ▸ h.toSound.step .wait, nofun, nofun⟩
    | receiving cancelled =>
      have hsound := h.toSound.step .wait
      rw [step_of_receiving hw] at hsound ⊢
      refine ⟨hsound, ?_, fun hnone => ?_⟩
      · cases m.handoff.waitOrCancel cancelled with
        | none => exact nofun
        | some r => exact nofun
      · rw [waiter_settle_iff (by simp)] at hnone
        rw [answerer_settle, cancelled_settle]
        exact h.nothing_of_receiving hw hnone
    | returned r =>
      refine ⟨h.toSound.step .wait, ?_, hkept (Or.inr ⟨r, hw⟩)⟩
      rw [waiter_of_returned hw]
      exact nofun
  · refine ⟨h.toSound.step move, ?_, hkept (Or.inl hmove)⟩
    rw [m.waiter_step hmove]
    exact h.waiter

theorem Steady.after (h : m.Steady) (moves : List (Move α)) : (m.after moves).Steady := by
  induction moves generalizing m with
  | nil => exact h
  | cons move moves ih => exact ih (h.step move)

theorem Heedful.after (h : m.Heedful) (moves : List (Move α)) : (m.after moves).Heedful := by
  induction moves generalizing m with
  | nil => exact h
  | cons move moves ih => exact ih (h.step move)

/-! ## What is delivered -/

theorem delivered_of_returned {result : Option α} (h : m.waiter = .returned result)
    (moves : List (Move α)) : m.delivered moves = [] := by
  induction moves generalizing m with
  | nil => rfl
  | cons move moves ih =>
    rw [delivered, ih (waiter_of_returned h move), delivers?, h]
    rfl

/-- At most one value is delivered. -/
theorem length_delivered_le (m : Meeting α) (moves : List (Move α)) :
    (m.delivered moves).length ≤ 1 := by
  induction moves generalizing m with
  | nil => exact Nat.zero_le 1
  | cons move moves ih =>
    rw [delivered]
    cases hvalue : m.delivers? move with
    | none => simpa using ih (m.step move)
    | some value =>
      -- the wait has returned
      unfold delivers? at hvalue
      split at hvalue
      · cases hvalue
      · rename_i hreturned _
        rw [delivered_of_returned hreturned]
        simp
      · cases hvalue

/-! ## The guarantees -/

/-- A wait that takes no notice of the flag gets the value that was offered, and nothing if the
answering half went away with none offered.  Until one of them happens it waits, and then it gets
this at its next move. -/
structure Answers (m : Meeting α) : Prop where
  returned : ∀ result, m.waiter = .returned result →
    (∀ value, result = some value ↔ m.answerer.answer? = some value) ∧
    (result = none ↔ m.answerer = .gone none)
  waiting : m.waiter = .waiting →
    (∀ value, (m.step .wait).waiter = .returned (some value) ↔ m.answerer.answer? = some value) ∧
    ((m.step .wait).waiter = .returned none ↔ m.answerer = .gone none)

/-- A wait that heeds the flag gets no value but the one that was offered, and nothing only if none
was and the answering half is gone, or if the flag is raised.  At every look into the slot it gets
what was offered before, whatever it saw of the flag.  Once the flag is raised it ends. -/
structure AnswersOrEnds (m : Meeting α) : Prop where
  value : ∀ value, m.waiter = .returned (some value) → m.answerer.answer? = some value
  nothing : m.waiter = .returned none → m.answerer = .gone none ∨ m.cancelled = true
  answered : ∀ cancelled value, m.waiter = .receiving cancelled →
    m.answerer.answer? = some value → (m.step .wait).waiter = .returned (some value)
  ends : m.cancelled = true → ∃ result, (m.after [.wait, .wait, .wait]).waiter = .returned result

/-- Answering is done in two moves, whatever the other party does, and never finds the slot full. -/
structure Unhindered (m : Meeting α) : Prop where
  offers : ∀ value, m.answerer = .offering value → ∃ offer,
    (m.step .proceed).answerer = .leaving value offer ∧ offer ≠ .full
  leaves : ∀ value offer, m.answerer = .leaving value offer →
    (m.step .proceed).answerer = .gone (some value)
  whole : ∀ value, m.answerer = .holding →
    (m.after [.answer value, .proceed, .proceed]).handoff = m.handoff.answer value

theorem Steady.answers (h : m.Steady) : m.Answers where
  returned result hresult := by
    cases result with
    | none =>
      have hgone := h.nothing hresult
      simp [hgone, Answerer.answer?]
    | some v =>
      have hanswer := h.result v hresult
      refine ⟨fun value => by rw [hanswer], ⟨nofun, fun hgone => ?_⟩⟩
      rw [hgone] at hanswer
      cases hanswer
  waiting hw := by
    have hhere := h.here (by simp [hw])
    rw [step_of_waiting hw]
    refine ⟨fun value => ?_, ?_⟩
    · rw [waiter_settle_iff (by simp), h.wait_eq_value_iff hhere]
    · rw [waiter_settle_iff (by simp), h.wait_eq_nothing_iff hhere]

/-- With the flag raised, a look into the slot is the last. -/
theorem ends_of_receiving (h : m.waiter = .receiving true) :
    ∃ result, (m.step .wait).waiter = .returned result := by
  rw [step_of_receiving h]
  exact ⟨_, rfl⟩

theorem Heedful.ends (h : m.Heedful) (hc : m.cancelled = true) :
    ∃ result, (m.after [.wait, .wait, .wait]).waiter = .returned result := by
  have hthen {m : Meeting α} (hm : ∃ result, m.waiter = .returned result) :
      ∃ result, (m.step .wait).waiter = .returned result := by
    obtain ⟨result, hresult⟩ := hm
    exact ⟨result, waiter_of_returned hresult .wait⟩
  have hlook {m : Meeting α} (hm : m.waiter = .looking) (hc : m.cancelled = true) :
      ∃ result, ((m.step .wait).step .wait).waiter = .returned result := by
    refine ends_of_receiving ?_
    rw [step_of_looking hm, hc]
  change ∃ result, (((m.step .wait).step .wait).step .wait).waiter = .returned result
  cases hw : m.waiter with
  | waiting => exact absurd hw h.waiter
  | looking => exact hthen (hlook hw hc)
  | returned result => exact hthen (hthen (hthen ⟨result, hw⟩))
  | receiving cancelled =>
    cases hgot : m.handoff.waitOrCancel cancelled with
    | none =>
      -- it starts again, and this time it sees the flag
      have hagain : m.step .wait = { m with waiter := .looking } := by
        rw [step_of_receiving hw, hgot]
        rfl
      exact hlook (by rw [hagain]) (cancelled_step hc .wait)
    | some result =>
      refine hthen (hthen ⟨result, ?_⟩)
      rw [step_of_receiving hw, hgot]
      rfl

theorem Heedful.answersOrEnds (h : m.Heedful) : m.AnswersOrEnds where
  value := h.result
  nothing := h.nothing
  answered cancelled value hw ha := by
    rw [step_of_receiving hw, h.waitOrCancel_of_answer (h.here (by simp [hw])) ha]
    rfl
  ends := h.ends

theorem Sound.unhindered (h : m.Sound) : m.Unhindered where
  offers value ha := by
    rw [Meeting.step, ha]
    refine ⟨_, rfl, ?_⟩
    rw [h.offer_eq (by rw [ha]; rfl)]
    split
    · exact nofun
    · exact nofun
  leaves value offer ha := by rw [Meeting.step, ha]
  whole value ha := by
    have hanswering : m.handoff.answering = true := by
      cases hanswering : m.handoff.answering with
      | true => rfl
      | false => simpa [ha] using h.answering.mp hanswering
    have hoffer := h.offer_eq (by rw [ha]; rfl) value
    simp only [Meeting.after, List.foldl_cons, List.foldl_nil, Meeting.step, ha, hoffer]
    cases hw : m.handoff.waiting with
    | true => simp [Handoff.answer, Handoff.drop, hanswering, hw]
    | false => simp [Handoff.answer, Handoff.drop, hanswering, hw, h.emptied hw]

/-- **One answer, and none is lost.**  In whatever order the parties move and whenever the flag is
raised, both kinds of wait get what they are to get, the party that answers is never hindered, and at
most one value is delivered. -/
theorem waits (moves : List (Move α)) :
    let steady : Meeting α := { waiter := .waiting }
    let heedful : Meeting α := { waiter := .looking }
    (steady.after moves).Answers ∧ (heedful.after moves).AnswersOrEnds ∧
    (∀ m ∈ [steady, heedful], (m.after moves).Unhindered ∧ (m.delivered moves).length ≤ 1) := by
  intro steady heedful
  have hsteady : steady.Steady := ⟨sound_start _ (Or.inl rfl), Or.inl rfl, nofun⟩
  have hheedful : heedful.Heedful := ⟨sound_start _ (Or.inr rfl), nofun, nofun⟩
  refine ⟨(hsteady.after moves).answers, (hheedful.after moves).answersOrEnds, ?_⟩
  refine List.forall_mem_cons.mpr ⟨⟨(hsteady.after moves).unhindered, ?_⟩,
    List.forall_mem_singleton.mpr ⟨(hheedful.after moves).unhindered, ?_⟩⟩
  · exact length_delivered_le _ _
  · exact length_delivered_le _ _

/-- The flag is raised while the value is on its way, and the value is delivered. -/
example : (({ waiter := .looking } : Meeting Nat).after
    [.answer 7, .cancel, .wait, .proceed, .wait]).waiter = .returned (some 7) := rfl

end Meeting

end Palmtop.Handoff
