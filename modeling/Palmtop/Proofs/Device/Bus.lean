import Palmtop.Device.Bus
import Palmtop.Proofs.Device.Commands
import Palmtop.Proofs.Device.Embedding

/-! # Laws of the bus

What it takes to get at a device (`Bus.Offers`), what a connection to it is good for (`Bus.Drives`),
and that working with one device leaves the others alone (`Bus.Spares`).  Over a connection, the
bus does what the device does by itself (`Bus.Drives.embeds`).
-/
namespace Palmtop.Device.Bus

/-- Connecting under this PIN leads to device number `n`, which is in this state and held by
nobody. -/
structure Offers (bus : Bus) (pin : Pin) (n : Nat) (d : Device) : Prop where
  device : bus.devices[n]? = some d
  route : (bus.live.lookup pin = none ∧ bus.numberOf? pin = some n) ∨
    ∃ id c, bus.live.lookup pin = some id ∧ bus.connections[id]? = some c ∧ c.device = n ∧
      c.held = false

/-- The connection drives device number `n`, which is in this state. -/
structure Drives (bus : Bus) (id : ConnectionId) (n : Nat) (d : Device) : Prop where
  device : bus.devices[n]? = some d
  connection : ∃ c, bus.connections[id]? = some c ∧ c.device = n

/-- Nothing changes but device number `n`, its connections and what is given out for a PIN. -/
structure Spares (bus bus' : Bus) (pin : Pin) (n : Nat) : Prop where
  devices : ∀ m, m ≠ n → bus'.devices[m]? = bus.devices[m]?
  plugged : bus'.plugged = bus.plugged
  live : ∀ p, p ≠ pin → bus'.live.lookup p = bus.live.lookup p
  connections : ∀ (id : ConnectionId) c, bus.connections[id]? = some c → c.device ≠ n →
    bus'.connections[id]? = some c
  failingProbes : bus'.failingProbes = bus.failingProbes

variable {bus bus' bus'' : Bus} {pin other : Pin} {n m : Nat} {d d' : Device} {id : ConnectionId}
  {info : DeviceInfo} {password : Option String}

/-! ## The others -/

theorem spares_self (bus : Bus) (pin : Pin) (n : Nat) : bus.Spares bus pin n :=
  ⟨fun _ _ => rfl, rfl, fun _ _ => rfl, fun _ _ h _ => h, rfl⟩

theorem Spares.trans (h : bus.Spares bus' pin n) (h' : bus'.Spares bus'' pin n) :
    bus.Spares bus'' pin n where
  devices m hm := (h'.devices m hm).trans (h.devices m hm)
  plugged := h'.plugged.trans h.plugged
  live p hp := (h'.live p hp).trans (h.live p hp)
  connections id c hc hn := h'.connections id c (h.connections id c hc hn) hn
  failingProbes := h'.failingProbes.trans h.failingProbes

/-- What is offered under another PIN stays offered. -/
theorem Spares.offers (h : bus.Spares bus' pin n) (ho : bus.Offers other m d) (hpin : other ≠ pin)
    (hm : m ≠ n) : bus'.Offers other m d where
  device := (h.devices m hm).trans ho.device
  route := by
    rcases ho.route with ⟨hlive, hnumber⟩ | ⟨id, c, hlive, hc, hcm, hheld⟩
    · exact Or.inl ⟨(h.live other hpin).trans hlive, by rw [numberOf?, h.plugged]; exact hnumber⟩
    · exact Or.inr ⟨id, c, (h.live other hpin).trans hlive,
        h.connections id c hc (hcm ▸ hm), hcm, hheld⟩

/-! ## Changes of one device -/

theorem setDevice_self (h : bus.devices[n]? = some d) : bus.setDevice n d = bus := by
  obtain ⟨hn, rfl⟩ := List.getElem?_eq_some_iff.mp h
  rw [setDevice, List.set_getElem_self]

theorem spares_setDevice (bus : Bus) (pin : Pin) (n : Nat) (d : Device) :
    bus.Spares (bus.setDevice n d) pin n :=
  ⟨fun _ hm => List.getElem?_set_ne (Ne.symm hm), rfl, fun _ _ => rfl, fun _ _ h _ => h, rfl⟩

theorem Drives.setDevice (h : bus.Drives id n d) (d' : Device) :
    (bus.setDevice n d').Drives id n d' := by
  obtain ⟨hn, -⟩ := List.getElem?_eq_some_iff.mp h.device
  exact ⟨List.getElem?_set_self hn, h.connection⟩

/-- A device in another state is offered as it was. -/
theorem Offers.setDevice (h : bus.Offers pin n d) (d' : Device) :
    (bus.setDevice n d').Offers pin n d' := by
  obtain ⟨hn, -⟩ := List.getElem?_eq_some_iff.mp h.device
  exact ⟨List.getElem?_set_self hn, h.route⟩

theorem Offers.setDevice_of_ne (h : bus.Offers pin m d) (hm : m ≠ n) (d' : Device) :
    (bus.setDevice n d').Offers pin m d :=
  ⟨(List.getElem?_set_ne (Ne.symm hm)).trans h.device, h.route⟩

/-- Over a connection the bus does what the device does. -/
theorem Drives.embeds (h : bus.Drives id n d) :
    Device.session.Embeds (session id) (bus.setDevice n) := by
  refine ⟨fun c x => ?_⟩
  -- the connection is looked up in the bus as the command finds it
  obtain ⟨connection, hc, hn⟩ := (h.setDevice x).connection
  simp only [session, hc, hn, (h.setDevice x).device]
  simp only [Bus.setDevice, List.set_set, Device.session]

theorem Drives.catalog (h : bus.Drives id n d) (hd : d.Sound m) :
    (session id).catalog bus = (.ok d.listing, bus.setDevice n (d.logged ⟨.catalog, true⟩)) := by
  have hcatalog := hd.catalog
  have hrun := h.embeds.run .catalog d
  rw [setDevice_self h.device] at hrun
  rw [Session.catalog] at hcatalog
  rw [Session.catalog, hrun, hcatalog]

/-! ## Holding a connection -/

/-- Only whether somebody holds a connection is changed. -/
theorem spares_modify {f : Connection → Connection} (h : bus.Drives id n d) (pin : Pin) :
    bus.Spares { bus with connections := bus.connections.modify id f } pin n where
  devices _ _ := rfl
  plugged := rfl
  live _ _ := rfl
  connections other c hc hn := by
    obtain ⟨x, hx, hxn⟩ := h.connection
    -- the one modified drives device `n`, this one another
    have hne : id ≠ other := fun he => hn (by
      rw [← he, hx] at hc
      rw [← Option.some.inj hc, hxn])
    rw [List.getElem?_modify_ne f _ hne]
    exact hc
  failingProbes := rfl

theorem Drives.modify {f : Connection → Connection} (h : bus.Drives id n d)
    (hf : ∀ c, (f c).device = c.device) :
    Drives { bus with connections := bus.connections.modify id f } id n d := by
  obtain ⟨c, hc, hn⟩ := h.connection
  exact ⟨h.device, f c, by rw [List.getElem?_modify_eq, hc]; rfl, (hf c).trans hn⟩

theorem Drives.acquire (h : bus.Drives id n d) (hfree : bus.isFree id = true) (pin : Pin) :
    ∃ bus', bus.acquire? id = some bus' ∧ bus'.Drives id n d ∧ bus.Spares bus' pin n :=
  ⟨_, if_pos hfree, h.modify fun _ => rfl, spares_modify h pin⟩

theorem Drives.release (h : bus.Drives id n d) (pin : Pin) :
    (bus.release id).Drives id n d ∧ bus.Spares (bus.release id) pin n :=
  ⟨h.modify fun _ => rfl, spares_modify h pin⟩

/-! ## Connecting -/

/-- An offered device that can be unlocked gets a connection that nobody holds. -/
theorem Offers.connect (h : bus.Offers info.pin n d) (hu : d.unlock password = (.ok (), d)) :
    ∃ id bus', bus.connect info password = (.ok id, bus') ∧ bus'.Drives id n d ∧
      bus'.isFree id = true ∧ bus.Spares bus' info.pin n := by
  rcases h.route with ⟨hlive, hnumber⟩ | ⟨id, c, hlive, hc, hcn, hheld⟩
  · have hconnect : bus.connect info password = (.ok bus.connections.length,
        { bus with
          connections := bus.connections ++ [{ info, device := n }]
          live := (info.pin, bus.connections.length) :: bus.live }) := by
      simp only [Bus.connect, hlive, hnumber, h.device, hu, setDevice_self h.device]
    refine ⟨_, _, hconnect, ⟨h.device, _, List.getElem?_concat_length, rfl⟩, ?_,
      fun _ _ => rfl, rfl, fun p hp => ?_, fun i c hc _ => ?_, rfl⟩
    · simp [isFree]
    · have hne : (p == info.pin) = false := by simpa using hp
      simp [List.lookup_cons, hne]
    · obtain ⟨hi, -⟩ := List.getElem?_eq_some_iff.mp hc
      simpa [List.getElem?_append_left hi] using hc
  · exact ⟨id, bus, by simp only [Bus.connect, hlive], ⟨h.device, c, hc, hcn⟩,
      by simp [isFree, hc, hheld], spares_self bus info.pin n⟩

/-- A device that has not been unlocked before and wants a password says so. -/
theorem Offers.connect_locked {e : Error} (h : bus.Offers info.pin n d)
    (hlive : bus.live.lookup info.pin = none) (hu : d.unlock password = (.error e, d)) :
    bus.connect info password = (.error e, bus) := by
  rcases h.route with ⟨-, hnumber⟩ | ⟨id, c, hid, -⟩
  · simp only [Bus.connect, hlive, hnumber, h.device, hu, setDevice_self h.device]
  · rw [hlive] at hid
    cases hid

end Palmtop.Device.Bus
