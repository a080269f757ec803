import Palmtop.Proofs.Device.Bus
import Palmtop.Proofs.Migration.Answering

/-! # Asking for a password

The worker has no count of its own.  It tries to connect and asks for a password as long as the
device wants one, so it is the device that ends the loop: each wrong password costs one of the tries
that the next request names (`countdown`), and the request for the last one is the last request.
-/
namespace Palmtop

namespace Device.Bus
variable {bus : Bus} {info : DeviceInfo} {n : Nat} {d d' : Device} {password : Option String}
  {e : Error}

/-- The device under a PIN is not connected and has this lock. -/
structure Locked (bus : Bus) (pin : Pin) (n : Nat) (d : Device) (lock : Lock) : Prop where
  unconnected : bus.live.lookup pin = none
  plugged : bus.numberOf? pin = some n
  device : bus.devices[n]? = some { d with lock := some lock }

/-- Connecting fails if the device cannot be unlocked. -/
theorem connect_error (hlive : bus.live.lookup info.pin = none)
    (hnumber : bus.numberOf? info.pin = some n) (hd : bus.devices[n]? = some d)
    (hunlock : d.unlock password = (.error e, d')) :
    bus.connect info password = (.error e, bus.setDevice n d') := by
  simp only [Bus.connect, hlive, hnumber, hd, hunlock]

/-- A wrong password costs a try. -/
theorem Locked.connect_wrong {right wrong : String} {t : Nat}
    (h : bus.Locked info.pin n d ⟨right, t + 1⟩) (hwrong : wrong ≠ right) :
    ∃ bus', bus.connect info (some wrong)
        = (.error (if t = 0 then .passwordExhausted else .badPassword t), bus') ∧
      bus'.Locked info.pin n d ⟨right, t⟩ ∧ bus.Spares bus' info.pin n := by
  have hunlock : Device.unlock { d with lock := some ⟨right, t + 1⟩ } (some wrong)
      = (.error (if t = 0 then .passwordExhausted else .badPassword t),
        { d with lock := some ⟨right, t⟩ }) := by
    simp [Device.unlock, hwrong]
  obtain ⟨hn, -⟩ := List.getElem?_eq_some_iff.mp h.device
  exact ⟨_, connect_error h.unconnected h.plugged h.device hunlock,
    ⟨h.unconnected, h.plugged, List.getElem?_set_self hn⟩, spares_setDevice bus info.pin n _⟩

/-- The right password opens the device. -/
theorem Locked.connect_right {right : String} {t : Nat}
    (h : bus.Locked info.pin n d ⟨right, t + 1⟩) :
    ∃ id bus', bus.connect info (some right) = (.ok id, bus') ∧
      bus'.Drives id n { d with lock := some ⟨right, t + 1⟩ } ∧ bus'.isFree id = true ∧
      bus.Spares bus' info.pin n :=
  Offers.connect ⟨h.device, Or.inl ⟨h.unconnected, h.plugged⟩⟩ (by simp [Device.unlock])

end Device.Bus

namespace Migration

/-- An answer to a password request as a reply. -/
def Reply.ofPassword : Option String → Reply
  | some text => .password text
  | none => .declined

/-- The answer is a password, but not this one. -/
def IsWrong (password : String) (answer : Option String) : Prop :=
  ∃ text, answer = some text ∧ text ≠ "" ∧ text ≠ password

/-- So many requests for the password of a device, the first with these tries left and each with one
less than that before. -/
def countdown (info : DeviceInfo) : (tries count : Nat) → List Event
  | _, 0 => []
  | tries, count + 1 => .passwordRequest info tries :: countdown info (tries - 1) count

/-- How the worker ends after so many wrong answers. -/
inductive Unlocked (side : Side) (n : Nat) (d : Device) (password : String) (t : Nat)
    (answers : Nat → Option String) (r : Run) (k : Nat) (w : Interview) : Prop where
  /-- The right one comes in time, and nobody else holds the device. -/
  | opened {id : Device.ConnectionId} (left : k < t) (right : answers k = some password)
      (stage : w.run.stage = .taking side id)
      (drives : w.run.bus.Drives id n { d with lock := some ⟨password, t - k⟩ })
      (free : w.run.bus.isFree id = true) (uncancelled : w.run.cancelled = false)
      (posted : w.run.posted = (countdown (r.deviceAt side) t (k + 1)).reverse ++ r.posted)
  /-- None comes, or the empty one. -/
  | abandoned (left : k < t) (empty : (answers k).getD "" = "")
      (stage : w.run.stage = .ending (.error .cancelled)) (cancelled : w.run.cancelled = true)
      (posted : w.run.posted = (countdown (r.deviceAt side) t (k + 1)).reverse ++ r.posted)
  /-- There is no try left, and the user is not asked again. -/
  | exhausted (none : k = t)
      (stage : w.run.stage = .ending (.error (.device .passwordExhausted)))
      (uncancelled : w.run.cancelled = false)
      (posted : w.run.posted = (countdown (r.deviceAt side) t t).reverse ++ r.posted)

/-- How connecting to a device ends that has this password and had `t` tries left: after `k` wrong
answers, each of which has cost a try. -/
structure Unlocks (side : Side) (n : Nat) (d : Device) (password : String) (t : Nat)
    (answers : Nat → Option String) (r : Run) (k : Nat) (w : Interview) : Prop where
  few : k ≤ t
  wrong : ∀ i < k, IsWrong password (answers i)
  tries : w.run.bus.devices[n]? = some { d with lock := some ⟨password, t - k⟩ }
  spares : r.bus.Spares w.run.bus (r.deviceAt side).pin n
  unlocked : Unlocked side n d password t answers r k w

/-- One more wrong answer before. -/
theorem Unlocks.succ {side : Side} {n : Nat} {d : Device} {password : String} {t k : Nat}
    {answers : Nat → Option String} {r r₁ : Run} {w : Interview}
    (hwrong : IsWrong password (answers 0))
    (hspares : r.bus.Spares r₁.bus (r.deviceAt side).pin n) (hplan : r₁.plan = r.plan)
    (hposted : r₁.posted = .passwordRequest (r.deviceAt side) (t + 1) :: r.posted)
    (h : Unlocks side n d password t (fun i => answers (i + 1)) r₁ k w) :
    Unlocks side n d password (t + 1) answers r (k + 1) w := by
  have hside : r₁.deviceAt side = r.deviceAt side := by
    unfold Run.deviceAt
    rw [hplan]
  have hsub : t + 1 - (k + 1) = t - k := Nat.add_sub_add_right t 1 k
  have hcount (c : Nat) : (countdown (r₁.deviceAt side) t c).reverse ++ r₁.posted
      = (countdown (r.deviceAt side) (t + 1) (c + 1)).reverse ++ r.posted := by
    rw [hside, hposted, countdown, List.reverse_cons, List.append_assoc]
    rfl
  refine ⟨Nat.succ_le_succ h.few, fun i hi => ?_, hsub ▸ h.tries, hspares.trans (hside ▸ h.spares),
    ?_⟩
  · cases i with
    | zero => exact hwrong
    | succ i => exact h.wrong i (by omega)
  · cases h.unlocked with
    | opened left right stage drives free uncancelled posted =>
      exact .opened (Nat.succ_lt_succ left) right stage (hsub ▸ drives) free uncancelled
        (posted.trans (hcount _))
    | abandoned left empty stage cancelled posted =>
      exact .abandoned (Nat.succ_lt_succ left) empty stage cancelled (posted.trans (hcount _))
    | exhausted none stage uncancelled posted =>
      exact .exhausted (congrArg _ none) stage uncancelled (posted.trans (hcount _))

namespace Run
variable {r : Run} {side : Side} {replies : Nat → Option Reply} {m n t : Nat} {d : Device}
  {password : String} {bus : Device.Bus} {given : Option String}

/-- The worker is refused for good. -/
theorem connect_fail {e : Device.Error}
    (hconnect : r.bus.connect (r.deviceAt side) given = (.error e, bus))
    (he : e.passwordTries = none) : r.connect side given = { r with bus }.fail (.device e) := by
  simp only [connect, hconnect, he]

/-- The worker is refused, and asks for a password. -/
theorem connect_ask {e : Device.Error}
    (hconnect : r.bus.connect (r.deviceAt side) given = (.error e, bus))
    (he : e.passwordTries = some t) : r.connect side given
      = ({ r with bus }.post (.passwordRequest (r.deviceAt side) t)).goTo
        (.awaitingPassword side { answering := r.listening }) := by
  simp only [connect, hconnect, he, post]

/-- The worker is let in. -/
theorem connect_ok {id : Device.ConnectionId}
    (hconnect : r.bus.connect (r.deviceAt side) given = (.ok id, bus)) :
    r.connect side given = { r with bus, stage := .taking side id } := by
  simp only [connect, hconnect]

/-- The worker goes on with the answer it was given. -/
theorem comes_answered {w : Interview} {answer : Option String} (hcancelled : r.cancelled = false)
    (hreply : replies m = some (.ofPassword answer))
    (h : Interview.Comes replies w ⟨r.takePassword side answer, m + 1⟩) :
    Interview.Comes replies w ⟨r.goTo (.awaitingPassword side {}), m⟩ := by
  let r₁ := (r.goTo (.awaitingPassword side {})).receive (some (.ofPassword answer))
  have htaken : r₁.step = r.takePassword side answer := by
    cases answer <;>
      simp [r₁, receive, Reply.ofPassword, answerPassword, decline, goTo, step, hcancelled,
        Handoff.waitOrCancel, Handoff.wait, Handoff.answer, Handoff.drop, takePassword, abandon,
        fail]
  have hquiet : r₁.isAsking = false := by cases answer <;> rfl
  refine .of_reply hreply rfl ?_ (h.of_step htaken hquiet)
  simp [step, goTo, hcancelled, Handoff.waitOrCancel, Handoff.wait]

/-- A worker that asks ends with the answer, unless it is a wrong one. -/
theorem comes_asked {answers : Nat → Option String} {e : Device.Error}
    (hcancelled : r.cancelled = false) (hlistening : r.listening = true)
    (hreply : replies m = some (.ofPassword (answers 0)))
    (hconnect : r.bus.connect (r.deviceAt side) given = (.error e, bus))
    (he : e.passwordTries = some (t + 1))
    (hlocked : bus.Locked (r.deviceAt side).pin n d ⟨password, t + 1⟩)
    (hspares : r.bus.Spares bus (r.deviceAt side).pin n)
    (wrong : ∀ text r₁, answers 0 = some text → text ≠ "" → text ≠ password →
      r₁ = { r with bus }.post (.passwordRequest (r.deviceAt side) (t + 1)) →
      ∃ k w, Interview.Comes replies w ⟨r₁.goTo (.working (.connect side (some text))), m + 1⟩ ∧
        Unlocks side n d password t (fun i => answers (i + 1)) r₁ k w) :
    ∃ k w, Interview.Comes replies w ⟨r.goTo (.working (.connect side given)), m⟩ ∧
      Unlocks side n d password (t + 1) answers r k w := by
  let r₁ := { r with bus }.post (.passwordRequest (r.deviceAt side) (t + 1))
  have asks {w : Interview}
      (h : Interview.Comes replies w ⟨r₁.takePassword side (answers 0), m + 1⟩) :
      Interview.Comes replies w ⟨r.goTo (.working (.connect side given)), m⟩ := by
    have hasked : (r.goTo (.working (.connect side given))).step
        = r₁.goTo (.awaitingPassword side { answering := r.listening }) :=
      connect_ask (r := r.goTo _) hconnect he
    rw [hlistening] at hasked
    exact .of_step (comes_answered (r := r₁) hcancelled hreply h) hasked rfl
  have gaveUp (hempty : (answers 0).getD "" = "")
      (htaken : r₁.takePassword side (answers 0) = r₁.abandon) :
      ∃ k w, Interview.Comes replies w ⟨r.goTo (.working (.connect side given)), m⟩ ∧
        Unlocks side n d password (t + 1) answers r k w :=
    ⟨0, ⟨r₁.abandon, m + 1⟩, asks (htaken ▸ .here), Nat.zero_le _, nofun, hlocked.device, hspares,
      .abandoned (Nat.succ_pos t) hempty rfl rfl rfl⟩
  cases hanswer : answers 0 with
  | none => exact gaveUp (by rw [hanswer]; rfl) (by rw [hanswer]; rfl)
  | some text =>
    by_cases hempty : text = ""
    · subst hempty
      exact gaveUp (by rw [hanswer]; rfl) (by rw [hanswer]; rfl)
    have htaken : r₁.takePassword side (answers 0)
        = r₁.goTo (.checking (.connect side (some text))) := by
      rw [hanswer]
      exact if_neg (by simpa [String.isEmpty_iff] using hempty)
    -- with anything else the worker tries to connect once more
    have tries {w : Interview} (h : Interview.Comes replies w
        ⟨r₁.goTo (.working (.connect side (some text))), m + 1⟩) :
        Interview.Comes replies w ⟨r.goTo (.working (.connect side given)), m⟩ := by
      refine asks ?_
      rw [htaken]
      exact .of_checking hcancelled h
    by_cases hright : text = password
    · subst hright
      obtain ⟨id, bus', hopen, hdrives, hfree, hspares'⟩ := hlocked.connect_right
      have hlet : (r₁.goTo (.working (.connect side (some text)))).step
          = { r₁ with bus := bus', stage := .taking side id } :=
        connect_ok (r := r₁.goTo (.working (.connect side (some text)))) hopen
      exact ⟨0, _, tries (.of_step .here hlet rfl), Nat.zero_le _, nofun, hdrives.device,
        hspares.trans hspares',
        .opened (Nat.succ_pos t) hanswer rfl hdrives hfree hcancelled rfl⟩
    · obtain ⟨k, w, hcomes, hunlocks⟩ := wrong text r₁ hanswer hempty hright rfl
      have hspares : r.bus.Spares r₁.bus (r.deviceAt side).pin n := hspares
      exact ⟨k + 1, w, tries hcomes,
        hunlocks.succ ⟨text, hanswer, hempty, hright⟩ hspares rfl rfl⟩

/-- A worker that asks goes on asking until it is let in, is not answered, or no try is left. -/
theorem comes_unlocks {answers : Nat → Option String} {e : Device.Error}
    (hcancelled : r.cancelled = false) (hlistening : r.listening = true)
    (hreplies : ∀ i, replies (m + i) = some (.ofPassword (answers i)))
    (hconnect : r.bus.connect (r.deviceAt side) given = (.error e, bus))
    (he : e.passwordTries = some (t + 1))
    (hlocked : bus.Locked (r.deviceAt side).pin n d ⟨password, t + 1⟩)
    (hspares : r.bus.Spares bus (r.deviceAt side).pin n) :
    ∃ k w, Interview.Comes replies w ⟨r.goTo (.working (.connect side given)), m⟩ ∧
      Unlocks side n d password (t + 1) answers r k w := by
  -- each wrong answer leaves a device that wants a password and has one try less
  induction t generalizing r m answers e bus given with
  | zero =>
    refine comes_asked hcancelled hlistening (hreplies 0) hconnect he hlocked hspares ?_
    rintro text r₁ - - hwrong rfl
    obtain ⟨bus', hrefused, hlocked', hspares'⟩ := hlocked.connect_wrong hwrong
    exact ⟨0, _, .of_step .here (connect_fail (r := goTo _ _) hrefused rfl) rfl, Nat.le_refl 0,
      nofun, hlocked'.device, hspares', .exhausted rfl rfl hcancelled rfl⟩
  | succ t ih =>
    refine comes_asked hcancelled hlistening (hreplies 0) hconnect he hlocked hspares ?_
    rintro text r₁ - - hwrong rfl
    obtain ⟨bus', hrefused, hlocked', hspares'⟩ := hlocked.connect_wrong hwrong
    refine ih (m := m + 1) hcancelled hlistening (fun i => ?_) hrefused rfl hlocked' hspares'
    rw [Nat.add_assoc, Nat.add_comm 1 i]
    exact hreplies (i + 1)

/-- A worker that nobody listens to asks once. -/
theorem comes_unheard {answers : Nat → Option String} {e : Device.Error}
    (hcancelled : r.cancelled = false) (hlistening : r.listening = false)
    (hmissing : answers 0 = none)
    (hconnect : r.bus.connect (r.deviceAt side) given = (.error e, bus))
    (he : e.passwordTries = some (t + 1))
    (hlocked : bus.Locked (r.deviceAt side).pin n d ⟨password, t + 1⟩)
    (hspares : r.bus.Spares bus (r.deviceAt side).pin n) :
    ∃ k w, Interview.Comes replies w ⟨r.goTo (.working (.connect side given)), m⟩ ∧
      Unlocks side n d password (t + 1) answers r k w := by
  let r₁ := { r with bus }.post (.passwordRequest (r.deviceAt side) (t + 1))
  have hasked : (r.goTo (.working (.connect side given))).step
      = r₁.goTo (.awaitingPassword side { answering := r.listening }) :=
    connect_ask (r := r.goTo _) hconnect he
  rw [hlistening] at hasked
  have hdropped : (r₁.goTo (.awaitingPassword side { answering := false })).step = r₁.abandon := by
    simp [step, goTo, r₁, post, hcancelled, Handoff.waitOrCancel, Handoff.wait, takePassword,
      abandon, fail]
  exact ⟨0, ⟨r₁.abandon, m⟩, .of_step (.of_step .here hdropped rfl) hasked rfl, Nat.zero_le _,
    fun i hi => absurd hi (Nat.not_lt_zero i), hlocked.device, hspares,
    .abandoned (Nat.succ_pos t) (by rw [hmissing]; rfl) rfl rfl rfl⟩

end Run

/-- **The password loop ends.**  A device has not been connected and is locked, with `t` tries left;
the worker connects, and each of its requests is answered, be it with nothing, as it is when nobody
listens; nobody cancels.  After some `k` wrong answers that each cost a try the worker is let in
with the right one, gives up for want of an answer, or has used up all tries.  The requests count
down from `t`, and there is none for a device that has no try left. -/
theorem connect_unlocks {r : Run} {side : Side} {n t : Nat} {d : Device} {password : String}
    (start : r.stage = .checking (.connect side none)) (uncancelled : r.cancelled = false)
    (unconnected : r.bus.live.lookup (r.deviceAt side).pin = none)
    (plugged : r.bus.numberOf? (r.deviceAt side).pin = some n) (device : r.bus.devices[n]? = some d)
    (locked : d.lock = some ⟨password, t⟩) (answers : Nat → Option String)
    (heard : r.listening = true ∨ answers 0 = none) {schedule : Nat → Party}
    (fair : Alternating schedule) :
    ∃ N k, Unlocks side n d password t answers r k
      (Interview.after (fun i => some (.ofPassword (answers i))) schedule ⟨r, 0⟩ N) := by
  suffices hcomes : ∃ k w, Interview.Comes (fun i => some (.ofPassword (answers i))) w
      ⟨r.goTo (.working (.connect side none)), 0⟩ ∧ Unlocks side n d password t answers r k w by
    obtain ⟨k, w, hcomes, hunlocks⟩ := hcomes
    have hstart : r = r.goTo (.checking (.connect side none)) := by rw [← start]; rfl
    have hcomes : Interview.Comes (fun i => some (.ofPassword (answers i))) w ⟨r, 0⟩ := by
      rw [hstart]
      exact .of_checking uncancelled hcomes
    obtain ⟨N, hN⟩ := hcomes.reached fair
    exact ⟨N, k, hN ▸ hunlocks⟩
  have hsame : { d with lock := some ⟨password, t⟩ } = d := by rw [← locked]
  have hlocked : r.bus.Locked (r.deviceAt side).pin n d ⟨password, t⟩ :=
    ⟨unconnected, plugged, hsame.symm ▸ device⟩
  have hspares := Device.Bus.spares_self r.bus (r.deviceAt side).pin n
  have hconnect {e : Device.Error} (hunlock : d.unlock none = (.error e, d)) :
      r.bus.connect (r.deviceAt side) none = (.error e, r.bus) := by
    rw [Device.Bus.connect_error unconnected plugged device hunlock,
      Device.Bus.setDevice_self device]
  cases t with
  | zero =>
    have hrefused := hconnect (e := .passwordExhausted) (by simp [Device.unlock, locked])
    exact ⟨0, _, .of_step .here (Run.connect_fail (r := Run.goTo _ _) hrefused rfl) rfl,
      Nat.le_refl 0, nofun, hlocked.device, hspares, .exhausted rfl rfl uncancelled rfl⟩
  | succ t =>
    have hrefused := hconnect (e := .passwordRequired (t + 1)) (by simp [Device.unlock, locked])
    cases hlistening : r.listening with
    | true =>
      exact Run.comes_unlocks uncancelled hlistening (fun i => by rw [Nat.zero_add]) hrefused rfl
        hlocked hspares
    | false =>
      have hmissing := heard.resolve_left (by rw [hlistening]; exact Bool.false_ne_true)
      exact Run.comes_unheard uncancelled hlistening hmissing hrefused rfl hlocked hspares

/-- One of the two tries goes wrong, and then the user declines. -/
theorem connect_unlocks_declined :
    let info : DeviceInfo := ⟨1, "Old"⟩
    let d : Device := { lock := some ⟨"1234", 2⟩ }
    let plan : Plan := { source := info, archivePath := ⟨"backup.tar"⟩ }
    let r : Run :=
      { plan, bus := ({} : Device.Bus).plugIn info d, files := {}
        stage := .checking (.connect .source none) }
    let answers (i : Nat) : Option String := if i = 0 then some "4321" else none
    ∃ N, let w := Interview.after (fun i => some (.ofPassword (answers i))) inTurn ⟨r, 0⟩ N
      w.run.stage = .ending (.error .cancelled) ∧ w.run.cancelled = true ∧
        w.run.posted = [.passwordRequest info 1, .passwordRequest info 2] ∧
        w.run.bus.devices[0]? = some { d with lock := some ⟨"1234", 1⟩ } := by
  intro info d plan r answers
  obtain ⟨N, k, h⟩ := connect_unlocks (r := r) (n := 0) (d := d) rfl rfl rfl
    rfl rfl rfl answers (Or.inl rfl) alternating_inTurn
  refine ⟨N, ?_⟩
  match k, h with
  | 0, h =>
    -- the first answer is not the password, and not empty either
    cases h.unlocked with
    | opened _ right => exact absurd right (by decide)
    | abandoned _ empty => exact absurd empty (by decide)
    | exhausted none => cases none
  | 1, h =>
    cases h.unlocked with
    | opened _ right => cases right
    | abandoned _ _ stage cancelled posted => exact ⟨stage, cancelled, posted, h.tries⟩
    | exhausted none => cases none
  | k + 2, h =>
    obtain ⟨text, hanswer, -⟩ := h.wrong 1 (by omega)
    cases hanswer

end Migration

end Palmtop
