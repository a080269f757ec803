import Palmtop.Proofs.Device.Bus
import Palmtop.Proofs.Migration.Course

/-! # Getting at a device

A worker that is offered a device comes to take it, whatever lock is on the device, once it is given
the password (`Run.ends_connect`).
-/
namespace Palmtop.Migration

variable {world : Device.Bus} {Q : Run → Prop} {qs : List Question}

/-- The lock can be opened by a user: there is an attempt left, and the password is not the empty
one, which gives up. -/
structure Opens (lock : Device.Lock) : Prop where
  tries : lock.tries ≠ 0
  proper : lock.password.isEmpty = false

/-- The question a worker asks on its way to a device: none unless the device is locked and has not
been unlocked before. -/
def passwordQuestion (bus : Device.Bus) (info : DeviceInfo) (d : Device) : List Question :=
  match d.lock, bus.live.lookup info.pin with
  | some lock, none => [(.passwordRequest info lock.tries, .password lock.password)]
  | _, _ => []

namespace Run

variable {r : Run} {side : Side} {n : Nat} {d : Device} {id : Device.ConnectionId}

/-- The worker is through with connecting: the connection drives the device and is free, and the
other devices are as they were. -/
structure Connects (r r' : Run) (pin : Pin) (n : Nat) (d : Device) (id : Device.ConnectionId) :
    Prop where
  keeps : r.Keeps r'
  files : r'.files = r.files
  drives : r'.bus.Drives id n d
  free : r'.bus.isFree id = true
  spares : r.bus.Spares r'.bus pin n

/-- The worker is let in. -/
theorem ends_connected {password : Option String} {bus : Device.Bus}
    (hconnect : r.bus.connect (r.deviceAt side) password = (.ok id, bus))
    (hcancelled : r.cancelled = false)
    (h : ({ r with bus }.goTo (.taking side id)).Ends world Q qs) :
    (r.goTo (.checking (.connect side password))).Ends world Q qs := by
  refine Ends.checking (h.of_step ?_ rfl rfl) hcancelled
  simp only [step, goTo, perform, connect, deviceAt] at hconnect ⊢
  simp only [hconnect]

/-- The device needs no password, or is given it. -/
theorem ends_unlocked {password : Option String}
    (hoffers : r.bus.Offers (r.deviceAt side).pin n d)
    (hunlock : d.unlock password = (.ok (), d)) (hcancelled : r.cancelled = false)
    (next : ∀ r' id, r.Connects r' (r.deviceAt side).pin n d id →
      (r'.goTo (.taking side id)).Ends world Q qs) :
    (r.goTo (.checking (.connect side password))).Ends world Q qs := by
  obtain ⟨id, bus, hconnect, hdrives, hfree, hspares⟩ := hoffers.connect hunlock
  exact ends_connected hconnect hcancelled
    (next { r with bus } id ⟨⟨rfl, rfl, rfl, rfl, rfl⟩, rfl, hdrives, hfree, hspares⟩)

/-- The worker asks for the password and gets it. -/
theorem ends_awaiting_password {lock : Device.Lock} (hlock : Opens lock)
    (hcancelled : r.cancelled = false) (hlistening : r.listening = true)
    (hworld : LooksLike world r.bus)
    (hconnect : r.bus.connect (r.deviceAt side) none
      = (.error (.passwordRequired lock.tries), r.bus))
    (next : ((r.post (.passwordRequest (r.deviceAt side) lock.tries)).goTo
      (.checking (.connect side (some lock.password)))).Ends world Q qs) :
    (r.goTo (.working (.connect side none))).Ends world Q
      ((.passwordRequest (r.deviceAt side) lock.tries, .password lock.password) :: qs) := by
  let q : Question := (.passwordRequest (r.deviceAt side) lock.tries, .password lock.password)
  let asked := r.post q.1
  have hstep : (r.goTo (.working (.connect side none))).step
      = asked.goTo (.awaitingPassword side { answering := true }) := by
    simp only [step, goTo, perform, connect, deviceAt] at hconnect ⊢
    simp only [hconnect, Device.Error.passwordTries, post, hlistening, asked]
    rfl
  have hanswered : ((asked.goTo (.awaitingPassword side { answering := true })).receive
      (some q.2)).step = asked.goTo (.checking (.connect side (some lock.password))) := by
    simp [receive, answerPassword, goTo, step, asked, post, hcancelled, Handoff.waitOrCancel,
      Handoff.wait, Handoff.answer, q, takePassword, hlock.proper]
  have hrest : ((asked.goTo (.awaitingPassword side { answering := true })).receive
      (some q.2)).Ends world Q qs := next.of_step hanswered rfl rfl
  refine hrest.of_asking hstep rfl rfl ⟨rfl, by simp [q], ?_, hworld⟩
  simp [step, goTo, asked, post, hcancelled, Handoff.waitOrCancel, Handoff.wait]

/-- The worker gets the connection of a device that is offered. -/
theorem ends_connect (side : Side) (hoffers : r.bus.Offers (r.deviceAt side).pin n d)
    (hlock : ∀ lock, d.lock = some lock → Opens lock) (hcancelled : r.cancelled = false)
    (hlistening : r.listening = true) (hworld : LooksLike world r.bus)
    (next : ∀ r' id, r.Connects r' (r.deviceAt side).pin n d id →
      (r'.goTo (.taking side id)).Ends world Q qs) :
    (r.goTo (.checking (.connect side none))).Ends world Q
      (passwordQuestion r.bus (r.deviceAt side) d ++ qs) := by
  cases hd : d.lock with
  | none =>
    rw [passwordQuestion, hd]
    exact ends_unlocked hoffers (by rw [Device.unlock, hd]) hcancelled next
  | some lock =>
    have hopens := hlock lock hd
    have hgiven : d.unlock (some lock.password) = (.ok (), d) := by
      simp [Device.unlock, hd, hopens.tries]
    cases hlive : r.bus.live.lookup (r.deviceAt side).pin with
    | none =>
      -- the worker tries without a password first, and takes the refusal as the reason to ask
      rw [passwordQuestion, hd, hlive]
      have hrefused : d.unlock none = (.error (.passwordRequired lock.tries), d) := by
        simp [Device.unlock, hd, hopens.tries]
      refine Ends.checking ?_ hcancelled
      refine ends_awaiting_password hopens hcancelled hlistening hworld
        (hoffers.connect_locked hlive hrefused) ?_
      let asked := r.post (.passwordRequest (r.deviceAt side) lock.tries)
      refine ends_unlocked (r := asked) hoffers hgiven hcancelled fun r' id h => ?_
      have hasked : r.Keeps asked := ⟨rfl, rfl, rfl, rfl, rfl⟩
      exact next r' id ⟨hasked.trans h.keeps, h.files, h.drives, h.free, h.spares⟩
    | some id =>
      -- it was unlocked before
      rw [passwordQuestion, hd, hlive]
      obtain ⟨id', bus, hconnect, hdrives, hfree, hspares⟩ := hoffers.connect hgiven
      have hsame : r.bus.connect (r.deviceAt side) none
          = r.bus.connect (r.deviceAt side) (some lock.password) := by
        simp only [Device.Bus.connect, hlive]
      exact ends_connected (hsame.trans hconnect) hcancelled
        (next { r with bus } id' ⟨⟨rfl, rfl, rfl, rfl, rfl⟩, rfl, hdrives, hfree, hspares⟩)

end Run

end Palmtop.Migration
