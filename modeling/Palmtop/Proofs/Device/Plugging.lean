import Palmtop.Proofs.Association
import Palmtop.Proofs.Device.Bus

/-! # Plugging and connecting

What callers may rely on whatever is plugged into a bus, taken off it and connected, in any order.
The bus keeps two tables, one of the devices plugged in (`numberOf?_eq_some_iff`) and one of the
connections to give out.  Unplugging changes both, plugging in the first alone.

* `Connects` lists what connecting can come to, one constructor for each way.
* `live_made` finds the call that made a connection, and with it the device it is for (`MadeFor`).
* `Shares` collects what follows for callers.  A connection drives the device that was plugged in
  when it was made; where another came in its place, that is no longer the one plugged in now
  (`connect_replaced`).
-/
namespace Palmtop.Device.Bus

variable {bus bus' : Bus} {pin : Pin} {n : Nat} {d d' : Device} {id : ConnectionId}
  {c : Connection} {info : DeviceInfo} {password : Option String}
  {answer : Except Error ConnectionId}

/-! ## Uses -/

/-- A call on a bus. -/
inductive Use where
  | plugIn (info : DeviceInfo) (device : Device)
  | unplug (pin : Pin)
  | connect (info : DeviceInfo) (password : Option String)

/-- The bus after a call. -/
def use (bus : Bus) : Use → Bus
  | .plugIn info device => bus.plugIn info device
  | .unplug pin => bus.unplug pin
  | .connect info password => (bus.connect info password).2

/-- A new bus after these calls, in this order. -/
def ofUses (uses : List Use) : Bus := uses.foldl use {}

theorem ofUses_append (before after : List Use) :
    ofUses (before ++ after) = after.foldl use (ofUses before) := List.foldl_append

theorem ofUses_concat (uses : List Use) (u : Use) : ofUses (uses ++ [u]) = (ofUses uses).use u := by
  rw [ofUses_append]
  rfl

/-- Whether a call plugs a device in under this PIN. -/
def Use.PlugsIn (pin : Pin) : Use → Prop
  | .plugIn info _ => info.pin = pin
  | _ => False

/-! ## Unlocking -/

/-- Unlocking changes nothing. -/
theorem eq_of_unlock_ok (h : d.unlock password = (.ok (), d')) : d' = d := by
  unfold Device.unlock at h
  split at h
  · cases h; rfl
  split at h
  · cases h
  split at h
  · cases h
  split at h
  · cases h; rfl
  · cases h

/-- A device that was not unlocked has at most lost an attempt. -/
theorem eq_of_unlock_error {e : Error} (h : d.unlock password = (.error e, d')) :
    d' = d ∨ ∃ lock, d.lock = some lock ∧ 0 < lock.tries ∧
      d' = { d with lock := some { lock with tries := lock.tries - 1 } } := by
  unfold Device.unlock at h
  split at h
  · cases h
  rename_i lock hlock
  split at h
  · cases h; exact Or.inl rfl
  rename_i htries
  split at h
  · cases h; exact Or.inl rfl
  split at h
  · cases h
  · cases h; exact Or.inr ⟨lock, hlock, Nat.pos_of_ne_zero htries, rfl⟩

/-! ## What connecting comes to -/

/-- What connecting under a PIN can answer, and the bus afterwards. -/
inductive Connects (bus : Bus) (info : DeviceInfo) : Except Error ConnectionId → Bus → Prop where
  /-- There is a connection to give out. -/
  | given {id : ConnectionId} (live : bus.live.lookup info.pin = some id) :
    Connects bus info (.ok id) bus
  /-- It fails and leaves no trace. -/
  | failed {e : Error} : Connects bus info (.error e) bus
  /-- The password was wrong. -/
  | refused {n : Nat} {d : Device} {lock : Lock} {e : Error}
    (plugged : bus.numberOf? info.pin = some n) (device : bus.devices[n]? = some d)
    (locked : d.lock = some lock) (pos : 0 < lock.tries) :
    Connects bus info (.error e)
      (bus.setDevice n { d with lock := some { lock with tries := lock.tries - 1 } })
  /-- A new connection is made for the device plugged in. -/
  | made {n : Nat} {d : Device} (unconnected : bus.live.lookup info.pin = none)
    (plugged : bus.numberOf? info.pin = some n) (device : bus.devices[n]? = some d) :
    Connects bus info (.ok bus.connections.length)
      { bus with
        connections := bus.connections ++ [{ info, device := n }]
        live := (info.pin, bus.connections.length) :: bus.live }

/-- What is found under a PIN decides what connecting comes to. -/
theorem connects (bus : Bus) (info : DeviceInfo) (password : Option String) :
    Connects bus info (bus.connect info password).1 (bus.connect info password).2 := by
  cases hlive : bus.live.lookup info.pin with
  | some id =>
    simp only [connect, hlive]
    exact .given hlive
  | none =>
    cases hnumber : bus.numberOf? info.pin with
    | none =>
      simp only [connect, hlive, hnumber]
      exact .failed
    | some n =>
      cases hdevice : bus.devices[n]? with
      | none =>
        simp only [connect, hlive, hnumber, hdevice]
        exact .failed
      | some d =>
        obtain ⟨answer, d', hunlock⟩ : ∃ answer d', d.unlock password = (answer, d') := ⟨_, _, rfl⟩
        cases answer with
        | error e =>
          simp only [connect, hlive, hnumber, hdevice, hunlock]
          rcases eq_of_unlock_error hunlock with rfl | ⟨lock, hlock, hpos, rfl⟩
          · rw [setDevice_self hdevice]
            exact .failed
          · exact .refused hnumber hdevice hlock hpos
        | ok =>
          obtain rfl := eq_of_unlock_ok hunlock
          simp only [connect, hlive, hnumber, hdevice, hunlock, setDevice_self hdevice]
          exact .made hlive hnumber hdevice

theorem Connects.plugged_eq (h : Connects bus info answer bus') : bus'.plugged = bus.plugged := by
  cases h <;> rfl

/-- The connection answered is the one to give out from now on. -/
theorem Connects.live_self (h : Connects bus info (.ok id) bus') :
    bus'.live.lookup info.pin = some id := by
  cases h with
  | given live => exact live
  | made unconnected plugged device => rw [List.lookup_cons_self]

/-- No connection is forgotten or changed. -/
theorem Connects.connection (h : Connects bus info answer bus')
    (hc : bus.connections[id]? = some c) : bus'.connections[id]? = some c := by
  cases h with
  | given | failed | refused => exact hc
  | made unconnected plugged device =>
    obtain ⟨hid, -⟩ := List.getElem?_eq_some_iff.mp hc
    exact (List.getElem?_append_left hid).trans hc

theorem Connects.live (h : Connects bus info answer bus') (hlive : bus.live.lookup pin = some id) :
    bus'.live.lookup pin = some id := by
  cases h with
  | given | failed | refused => exact hlive
  | made unconnected plugged device =>
    have hne : pin ≠ info.pin := by
      rintro rfl
      rw [hlive] at unconnected
      cases unconnected
    rw [List.lookup_cons, beq_eq_false_iff_ne.mpr hne, hlive]

/-- What is given out now and was not before is a connection just made. -/
theorem Connects.made_of_live (h : Connects bus info answer bus')
    (hlive : bus'.live.lookup pin = some id) (hold : bus.live.lookup pin ≠ some id) :
    info.pin = pin ∧ bus.live.lookup pin = none ∧ answer = .ok id ∧
      ∃ n d, bus.numberOf? pin = some n ∧ bus'.Drives id n d := by
  cases h with
  | given | failed | refused => exact absurd hlive hold
  | @made n d unconnected plugged device =>
    by_cases hpin : pin = info.pin
    · subst hpin
      rw [List.lookup_cons_self] at hlive
      cases hlive
      exact ⟨rfl, unconnected, rfl, n, d, plugged, device, _, List.getElem?_concat_length, rfl⟩
    · rw [List.lookup_cons, beq_eq_false_iff_ne.mpr hpin] at hlive
      exact absurd hlive hold

theorem Connects.drives (h : Connects bus info answer bus') (hd : bus.Drives id n d) :
    ∃ d', bus'.Drives id n d' := by
  cases h with
  | given | failed => exact ⟨d, hd⟩
  | @refused m x lock e plugged device locked pos =>
    by_cases hm : n = m
    · subst hm
      exact ⟨_, hd.setDevice _⟩
    · exact ⟨d, (List.getElem?_set_ne (Ne.symm hm)).trans hd.device, hd.connection⟩
  | made unconnected plugged device =>
    obtain ⟨c, hc, hn⟩ := hd.connection
    exact ⟨d, hd.device, c, (Connects.made unconnected plugged device).connection hc, hn⟩

/-! ## One use -/

/-- Devices under another PIN do not matter. -/
theorem find?_filter_of_ne {other : Pin} (h : pin ≠ other) (l : List (DeviceInfo × Nat)) :
    ((l.filter fun p => p.1.pin != other).find? fun p => p.1.pin == pin)
      = l.find? fun p => p.1.pin == pin := by
  rw [List.find?_filter]
  congr 1
  funext p
  by_cases hp : p.1.pin = pin
  · simp [hp, h]
  · simp [hp]

theorem find?_filter_self (l : List (DeviceInfo × Nat)) :
    ((l.filter fun p => p.1.pin != pin).find? fun p => p.1.pin == pin) = none := by
  simp [List.find?_filter]

theorem numberOf?_plugIn_self (bus : Bus) (info : DeviceInfo) (d : Device) :
    (bus.plugIn info d).numberOf? info.pin = some bus.devices.length := by
  simp only [numberOf?, plugIn, List.find?_append, find?_filter_self]
  simp

theorem numberOf?_plugIn_of_ne (h : pin ≠ info.pin) (d : Device) :
    (bus.plugIn info d).numberOf? pin = bus.numberOf? pin := by
  simp [numberOf?, plugIn, List.find?_append, find?_filter_of_ne h, h.symm]

theorem numberOf?_unplug_of_ne {other : Pin} (h : pin ≠ other) :
    (bus.unplug other).numberOf? pin = bus.numberOf? pin := by
  rw [numberOf?, unplug, find?_filter_of_ne h, numberOf?]

/-- What is plugged in under a PIN stays until another device comes in its place or it is
unplugged. -/
theorem numberOf?_use {u : Use} (hplug : ¬ u.PlugsIn pin) (hunplug : u ≠ .unplug pin) :
    (bus.use u).numberOf? pin = bus.numberOf? pin := by
  cases u with
  | plugIn info d => exact numberOf?_plugIn_of_ne (fun he => hplug he.symm) d
  | unplug other => exact numberOf?_unplug_of_ne fun he => hunplug (he ▸ rfl)
  | connect info password => rw [numberOf?, use, (connects bus info password).plugged_eq, numberOf?]

/-- A connection is given out until its PIN is unplugged. -/
theorem live_use {u : Use} (hunplug : u ≠ .unplug pin) (h : bus.live.lookup pin = some id) :
    (bus.use u).live.lookup pin = some id := by
  cases u with
  | plugIn => exact h
  | unplug other =>
    have hne : pin ≠ other := fun he => hunplug (he ▸ rfl)
    rw [use, unplug, lookup_filter_of_ne hne, h]
  | connect info password =>
    exact (connects bus info password).live h

theorem connection_use (h : bus.connections[id]? = some c) (u : Use) :
    (bus.use u).connections[id]? = some c := by
  cases u with
  | plugIn | unplug => exact h
  | connect info password => exact (connects bus info password).connection h

/-- A connection goes on driving the device it was made for. -/
theorem Drives.use (h : bus.Drives id n d) (u : Use) : ∃ d', (bus.use u).Drives id n d' := by
  cases u with
  | plugIn info new =>
    obtain ⟨hn, -⟩ := List.getElem?_eq_some_iff.mp h.device
    exact ⟨d, (List.getElem?_append_left hn).trans h.device, h.connection⟩
  | unplug => exact ⟨d, h.device, h.connection⟩
  | connect info password => exact (connects bus info password).drives h

/-- Only connecting under its PIN makes a connection. -/
theorem connect_of_live_use {u : Use} (h : (bus.use u).live.lookup pin = some id)
    (hold : bus.live.lookup pin ≠ some id) :
    ∃ info password, u = .connect info password ∧ info.pin = pin ∧
      bus.live.lookup pin = none ∧ (bus.connect info password).1 = .ok id ∧
      ∃ n d, bus.numberOf? pin = some n ∧ (bus.use u).Drives id n d := by
  cases u with
  | plugIn => exact absurd h hold
  | unplug other =>
    rw [Bus.use, unplug] at h
    by_cases hpin : pin = other
    · subst hpin
      rw [lookup_filter_self] at h
      cases h
    · rw [lookup_filter_of_ne hpin] at h
      exact absurd h hold
  | connect info password =>
    obtain ⟨hpin, hnone, hanswer, hmade⟩ := (connects bus info password).made_of_live h hold
    exact ⟨info, password, rfl, hpin, hnone, hanswer, hmade⟩

/-- A PIN under which a device is plugged in keeps one until it is unplugged. -/
theorem isSome_numberOf?_use {u : Use} (hunplug : u ≠ .unplug pin)
    (h : (bus.numberOf? pin).isSome) : ((bus.use u).numberOf? pin).isSome := by
  by_cases hplug : u.PlugsIn pin
  · cases u with
    | plugIn info d =>
      obtain rfl : info.pin = pin := hplug
      rw [use, numberOf?_plugIn_self]
      rfl
    | unplug | connect => cases hplug
  · rwa [numberOf?_use hplug hunplug]

/-! ## Any uses -/

variable {uses later : List Use}

/-- What every one of the later calls keeps is kept by all of them. -/
theorem kept_ofUses (before later : List Use) {P : Bus → Prop}
    (hkeeps : ∀ u ∈ later, ∀ bus, P bus → P (use bus u)) (h : P (ofUses before)) :
    P (ofUses (before ++ later)) := by
  induction later using List.reverseRecOn with
  | nil => rwa [List.append_nil]
  | append_singleton later u ih =>
    rw [List.forall_mem_append, List.forall_mem_singleton] at hkeeps
    rw [← List.append_assoc, ofUses_concat]
    exact hkeeps.2 _ (ih hkeeps.1)

/-- The device number `n` is plugged in under this PIN after these calls: no other was plugged in
there after it, nor was the PIN unplugged. -/
def PluggedIn (uses : List Use) (pin : Pin) (n : Nat) : Prop :=
  ∃ earlier info d later, uses = earlier ++ .plugIn info d :: later ∧ info.pin = pin ∧
    n = (ofUses earlier).devices.length ∧ (∀ u ∈ later, ¬ u.PlugsIn pin) ∧ .unplug pin ∉ later

theorem PluggedIn.concat (h : PluggedIn uses pin n) {u : Use} (hplug : ¬ u.PlugsIn pin)
    (hunplug : u ≠ .unplug pin) : PluggedIn (uses ++ [u]) pin n := by
  obtain ⟨earlier, info, d, later, rfl, hpin, hn, hplugs, hunplugs⟩ := h
  refine ⟨earlier, info, d, later ++ [u], by simp, hpin, hn, ?_, ?_⟩
  · exact List.forall_mem_append.mpr ⟨hplugs, List.forall_mem_singleton.mpr hplug⟩
  · simpa [hunplugs] using Ne.symm hunplug

theorem numberOf?_ofUses_append {before : List Use} (hplug : ∀ u ∈ later, ¬ u.PlugsIn pin)
    (hunplug : .unplug pin ∉ later) :
    (ofUses (before ++ later)).numberOf? pin = (ofUses before).numberOf? pin := by
  refine kept_ofUses before later
    (P := fun bus => bus.numberOf? pin = (ofUses before).numberOf? pin) ?_ rfl
  intro u hu bus hbus
  have hstays : u ≠ .unplug pin := fun he => hunplug (he ▸ hu)
  rw [numberOf?_use (hplug u hu) hstays, hbus]

/-- The table of devices says what is plugged in. -/
theorem numberOf?_eq_some_iff : (ofUses uses).numberOf? pin = some n ↔ PluggedIn uses pin n := by
  constructor
  · intro h
    induction uses using List.reverseRecOn with
    | nil => cases h
    | append_singleton uses u ih =>
      rw [ofUses_concat] at h
      by_cases hplug : u.PlugsIn pin
      · cases u with
        | plugIn info d =>
          obtain rfl : info.pin = pin := hplug
          rw [use, numberOf?_plugIn_self] at h
          exact ⟨uses, info, d, [], rfl, rfl, (Option.some.inj h).symm, by simp, by simp⟩
        | unplug | connect => cases hplug
      · by_cases hunplug : u = .unplug pin
        · subst hunplug
          rw [use, numberOf?, unplug, find?_filter_self] at h
          cases h
        · rw [numberOf?_use hplug hunplug] at h
          exact (ih h).concat hplug hunplug
  · rintro ⟨earlier, info, d, later, rfl, rfl, rfl, hplug, hunplug⟩
    rw [List.append_cons, numberOf?_ofUses_append hplug hunplug, ofUses_concat, use,
      numberOf?_plugIn_self]

/-- A call under this PIN made the connection, for the device that was plugged in then, number `n`.
Behind it came the `later` calls, and none of them unplugged the PIN. -/
structure MadeFor (uses later : List Use) (pin : Pin) (id : ConnectionId) (n : Nat) : Prop where
  made : ∃ earlier info password, uses = earlier ++ .connect info password :: later ∧
    info.pin = pin ∧ PluggedIn earlier pin n ∧ (ofUses earlier).live.lookup pin = none ∧
    ((ofUses earlier).connect info password).1 = .ok id
  stayed : .unplug pin ∉ later
  drives : ∃ d, (ofUses uses).Drives id n d

theorem MadeFor.concat (h : MadeFor uses later pin id n) {u : Use} (hu : u ≠ .unplug pin) :
    MadeFor (uses ++ [u]) (later ++ [u]) pin id n where
  made := by
    obtain ⟨earlier, info, password, rfl, hmade⟩ := h.made
    exact ⟨earlier, info, password, by simp, hmade⟩
  stayed := by simpa [h.stayed] using Ne.symm hu
  drives := by
    obtain ⟨d, hd⟩ := h.drives
    rw [ofUses_concat]
    exact hd.use u

/-- Every connection to give out was made by one of the calls. -/
theorem live_made (h : (ofUses uses).live.lookup pin = some id) :
    ∃ later n, MadeFor uses later pin id n := by
  induction uses using List.reverseRecOn with
  | nil => cases h
  | append_singleton uses u ih =>
    rw [ofUses_concat] at h
    by_cases hold : (ofUses uses).live.lookup pin = some id
    · have hu : u ≠ .unplug pin := by
        rintro rfl
        rw [use, unplug, lookup_filter_self] at h
        cases h
      obtain ⟨later, n, hmade⟩ := ih hold
      exact ⟨later ++ [u], n, hmade.concat hu⟩
    · obtain ⟨info, password, rfl, hpin, hnone, hanswer, n, d, hn, hd⟩ :=
        connect_of_live_use h hold
      have hplugged := numberOf?_eq_some_iff.mp hn
      rw [← ofUses_concat] at hd
      exact ⟨[], n, ⟨uses, info, password, rfl, hpin, hplugged, hnone, hanswer⟩,
        List.not_mem_nil, d, hd⟩

/-- The device a connection was made for is plugged in as long as no other comes in its place. -/
theorem MadeFor.pluggedIn (h : MadeFor uses later pin id n)
    (hplug : ∀ u ∈ later, ¬ u.PlugsIn pin) : PluggedIn uses pin n := by
  obtain ⟨earlier, info, password, rfl, -, hplugged, -⟩ := h.made
  have hall : ∀ u ∈ Use.connect info password :: later, ¬ u.PlugsIn pin :=
    List.forall_mem_cons.mpr ⟨fun h => h, hplug⟩
  rw [← numberOf?_eq_some_iff] at hplugged ⊢
  rw [numberOf?_ofUses_append hall (by simpa using h.stayed), hplugged]

/-- Some device is plugged in as long as the PIN is not unplugged. -/
theorem MadeFor.exists_pluggedIn (h : MadeFor uses later pin id n) : ∃ m, PluggedIn uses pin m := by
  obtain ⟨earlier, info, password, rfl, -, hplugged, -⟩ := h.made
  have hearlier : ((ofUses earlier).numberOf? pin).isSome := by
    rw [numberOf?_eq_some_iff.mpr hplugged]
    rfl
  have hnow := kept_ofUses earlier (.connect info password :: later)
    (P := fun bus => (bus.numberOf? pin).isSome) (fun u hu bus hbus => ?_) hearlier
  · obtain ⟨m, hm⟩ := Option.isSome_iff_exists.mp hnow
    exact ⟨m, numberOf?_eq_some_iff.mp hm⟩
  · have hstays : u ≠ .unplug pin := by
      rintro rfl
      exact h.stayed (by simpa using hu)
    exact isSome_numberOf?_use hstays hbus

/-! ## Connections given out -/

theorem live_connect (h : ((ofUses uses).connect info password).1 = .ok id) :
    (ofUses (uses ++ [.connect info password])).live.lookup info.pin = some id := by
  have hconnects := connects (ofUses uses) info password
  rw [h] at hconnects
  rw [ofUses_concat]
  exact hconnects.live_self

theorem connect_of_live (h : bus.live.lookup info.pin = some id) :
    bus.connect info password = (.ok id, bus) := by
  rw [connect, h]

/-- Connecting plugs nothing in. -/
theorem pluggedIn_connect : PluggedIn (uses ++ [.connect info password]) pin n ↔
    PluggedIn uses pin n := by
  have hsame : ((ofUses uses).use (.connect info password)).numberOf? pin
      = (ofUses uses).numberOf? pin := numberOf?_use (fun h => h) nofun
  rw [← numberOf?_eq_some_iff, ← numberOf?_eq_some_iff, ofUses_concat, hsame]

/-- Every connection to give out has the PIN it is given out for. -/
def Filed (bus : Bus) : Prop :=
  ∀ pin id, bus.live.lookup pin = some id →
    ∃ c, bus.connections[id]? = some c ∧ c.info.pin = pin

theorem Filed.connects (h : bus.Filed) (hconnects : Connects bus info answer bus') :
    bus'.Filed := by
  intro pin id hlive
  cases hconnects with
  | given | failed | refused => exact h pin id hlive
  | made unconnected plugged device =>
    by_cases hpin : pin = info.pin
    · subst hpin
      rw [List.lookup_cons_self] at hlive
      cases hlive
      exact ⟨_, List.getElem?_concat_length, rfl⟩
    · rw [List.lookup_cons, beq_eq_false_iff_ne.mpr hpin] at hlive
      obtain ⟨c, hc, hcpin⟩ := h pin id hlive
      exact ⟨c, (Connects.made unconnected plugged device).connection hc, hcpin⟩

theorem Filed.use (h : bus.Filed) (u : Use) : (bus.use u).Filed := by
  cases u with
  | plugIn => exact h
  | unplug other =>
    intro pin id hlive
    by_cases hpin : pin = other
    · subst hpin
      rw [Bus.use, unplug, lookup_filter_self] at hlive
      cases hlive
    · rw [Bus.use, unplug, lookup_filter_of_ne hpin] at hlive
      exact h pin id hlive
  | connect info password => exact h.connects (Bus.connects bus info password)

theorem filed_ofUses (uses : List Use) : (ofUses uses).Filed :=
  kept_ofUses [] uses (P := Filed) (fun u _ _ h => h.use u) (fun _ _ h => nomatch h)

/-! ## What callers may rely on -/

/-- What holds of a bus on which these calls were made. -/
structure Shares (uses : List Use) : Prop where
  /-- Under a PIN that is not unplugged in between the connection stays the same. -/
  same : ∀ {info password id between info' password' id'},
    ((ofUses uses).connect info password).1 = .ok id → info'.pin = info.pin →
    .unplug info.pin ∉ between →
    ((ofUses (uses ++ .connect info password :: between)).connect info' password').1 = .ok id' →
    id' = id
  /-- Under another PIN it is another one, whatever came in between. -/
  distinct : ∀ {info password id between info' password' id'},
    ((ofUses uses).connect info password).1 = .ok id → info'.pin ≠ info.pin →
    ((ofUses (uses ++ .connect info password :: between)).connect info' password').1 = .ok id' →
    id' ≠ id
  /-- A connection is given out only where something is plugged in. -/
  plugged : ∀ {info password id}, ((ofUses uses).connect info password).1 = .ok id →
    ∃ n, PluggedIn uses info.pin n
  /-- A failure leaves no trace but that a wrong password costs the device plugged in an
  attempt. -/
  failed : ∀ {info password e bus}, (ofUses uses).connect info password = (.error e, bus) →
    bus = ofUses uses ∨ ∃ n d lock, PluggedIn uses info.pin n ∧ (ofUses uses).devices[n]? = some d ∧
      d.lock = some lock ∧ 0 < lock.tries ∧
      bus = (ofUses uses).setDevice n { d with lock := some { lock with tries := lock.tries - 1 } }
  /-- A connection given out drives the device that was plugged in when it was made.  That is the
  one plugged in now, unless another was plugged in under the PIN since. -/
  drives : ∀ {info password id}, ((ofUses uses).connect info password).1 = .ok id →
    ∃ later n, MadeFor (uses ++ [.connect info password]) later info.pin id n ∧
      ((∀ u ∈ later, ¬ u.PlugsIn info.pin) → PluggedIn uses info.pin n)

/-- **Shared connections.**  Whatever is plugged in, unplugged and connected on a bus, in any order:
each PIN has one connection at a time, which is made for the device plugged in and given out until
the PIN is unplugged. -/
theorem shares (uses : List Use) : Shares uses where
  same {info password id between info' password' id'} h hpin hunplug h' := by
    have hlive := kept_ofUses _ between (P := fun bus => bus.live.lookup info.pin = some id)
      (fun u hu bus hbus => live_use (fun he => hunplug (he ▸ hu)) hbus) (live_connect h)
    rw [← hpin, ← List.append_cons] at hlive
    rw [connect_of_live hlive] at h'
    exact (Except.ok.inj h').symm
  distinct {info password id between info' password' id'} h hpin h' := by
    rintro rfl
    obtain ⟨c, hc, hcpin⟩ := filed_ofUses _ _ _ (live_connect h)
    obtain ⟨c', hc', hcpin'⟩ := filed_ofUses _ _ _ (live_connect h')
    have hlater := kept_ofUses _ (between ++ [.connect info' password'])
      (P := fun bus => bus.connections[id']? = some c) (fun u _ _ h => connection_use h u) hc
    rw [← List.append_assoc, ← List.append_cons, hc'] at hlater
    cases hlater
    exact hpin (hcpin'.symm.trans hcpin)
  plugged {info password id} h := by
    obtain ⟨later, n, hmade⟩ := live_made (live_connect h)
    obtain ⟨m, hm⟩ := hmade.exists_pluggedIn
    exact ⟨m, pluggedIn_connect.mp hm⟩
  failed {info password e bus} h := by
    have hconnects := connects (ofUses uses) info password
    rw [h] at hconnects
    cases hconnects with
    | failed => exact Or.inl rfl
    | @refused n d lock _ plugged device locked pos =>
      exact Or.inr ⟨n, d, lock, numberOf?_eq_some_iff.mp plugged, device, locked, pos, rfl⟩
  drives {info password id} h := by
    obtain ⟨later, n, hmade⟩ := live_made (live_connect h)
    exact ⟨later, n, hmade, fun hplug => pluggedIn_connect.mp (hmade.pluggedIn hplug)⟩

/-- Where another device is plugged in under a PIN that has a connection, the connection given out
is the old one, and drives the device that is no longer on the bus. -/
theorem connect_replaced :
    let info : DeviceInfo := ⟨1, "Bold"⟩
    let old : Device := { databases := [{ name := "Memos" }] }
    let new : Device := { databases := [{ name := "Tasks" }] }
    let uses : List Use := [.plugIn info old, .connect info none, .plugIn info new]
    let (answer, bus) := (ofUses uses).connect info none
    answer = .ok 0 ∧ PluggedIn uses 1 1 ∧ bus.devices[1]? = some new ∧ bus.Drives 0 0 old ∧
      ¬ ∃ d, bus.Drives 0 1 d := by
  refine ⟨rfl, numberOf?_eq_some_iff.mp rfl, rfl, ⟨rfl, _, rfl, rfl⟩, ?_⟩
  rintro ⟨d, hd⟩
  obtain ⟨c, hc, hn⟩ := hd.connection
  cases hc
  cases hn

end Palmtop.Device.Bus
