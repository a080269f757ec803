import Palmtop.Device.Bus
import Palmtop.Proofs.Device.Hearing

/-! # Who hears what on a bus

A device *carries* a PIN if it is plugged in under it or was connected under it (`Bus.Carries`).  On
an *orderly* bus no device carries two PINs, and what is given out for a PIN is a connection made
under it (`Bus.Orderly`); so is every bus that was built up from nothing.

`Bus.Talks` says what was said over one connection: it was heard by the device which that drives.
`Bus.Hears` says what each device heard on the way of the bus from one state to another; on this way
connections go on driving what they drove, devices get no other PIN, and the bus stays orderly.
-/
namespace Palmtop.Device.Bus

variable {bus bus' bus'' : Bus} {id : ConnectionId} {n : Nat} {d d' : Device} {pin : Pin}
  {info : DeviceInfo}

/-! ## PINs -/

/-- The device is plugged in under this PIN or was connected under it. -/
def Carries (bus : Bus) (n : Nat) (pin : Pin) : Prop :=
  (∃ p ∈ bus.plugged, p.2 = n ∧ p.1.pin = pin) ∨
  ∃ (id : ConnectionId) (c : Connection), bus.connections[id]? = some c ∧ c.device = n ∧
    c.info.pin = pin

/-- Distinct devices are kept under distinct PINs. -/
structure Orderly (bus : Bus) : Prop where
  distinct : ∀ n pin pin', bus.Carries n pin → bus.Carries n pin' → pin = pin'
  /-- What carries a PIN is a device. -/
  known : ∀ n pin, bus.Carries n pin → ∃ d, bus.devices[n]? = some d
  live : ∀ p ∈ bus.live, ∃ c, bus.connections[p.2]? = some c ∧ c.info.pin = p.1

theorem not_carries_empty (n : Nat) (pin : Pin) : ¬ ({} : Bus).Carries n pin := by
  rintro (⟨p, hp, -⟩ | ⟨id, c, hc, -⟩)
  · cases hp
  · cases hc

theorem orderly_empty : ({} : Bus).Orderly where
  distinct n pin _ h _ := (not_carries_empty n pin h).elim
  known n pin h := (not_carries_empty n pin h).elim
  live := nofun

theorem carries_congr (hplugged : bus'.plugged = bus.plugged)
    (hconnections : bus'.connections = bus.connections) : bus'.Carries = bus.Carries := by
  funext n pin
  rw [Carries, Carries, hplugged, hconnections]

theorem carries_of_numberOf? (h : bus.numberOf? pin = some n) : bus.Carries n pin := by
  obtain ⟨p, hp, rfl⟩ := Option.map_eq_some_iff.mp h
  have hpin := List.find?_some hp
  rw [beq_iff_eq] at hpin
  exact Or.inl ⟨p, List.mem_of_find?_eq_some hp, rfl, hpin⟩

/-- A bus stays orderly on which no device gets another PIN. -/
theorem Orderly.of_carries (h : bus.Orderly)
    (hdevices : ∀ (n : Nat) (d : Device), bus.devices[n]? = some d → ∃ d', bus'.devices[n]? = some d')
    (hcarries : ∀ n pin, bus'.Carries n pin → bus.Carries n pin)
    (hlive : ∀ p ∈ bus'.live, ∃ c, bus'.connections[p.2]? = some c ∧ c.info.pin = p.1) :
    bus'.Orderly where
  distinct n pin pin' hpin hpin' := h.distinct n pin pin' (hcarries n pin hpin)
    (hcarries n pin' hpin')
  known n pin hpin := by
    obtain ⟨d, hd⟩ := h.known n pin (hcarries n pin hpin)
    exact hdevices n d hd
  live := hlive

/-! ## What all devices hear -/

/-- What every device heard, the latest first, on the way of the bus from one state to another. -/
structure Hears (news : Nat → List Exchange) (bus bus' : Bus) : Prop where
  devices : ∀ (n : Nat) (d : Device), bus.devices[n]? = some d →
    ∃ d' : Device, bus'.devices[n]? = some d' ∧ d.Heard (news n) d'
  connections : ∀ (id : ConnectionId) (c : Connection), bus.connections[id]? = some c →
    ∃ c' : Connection, bus'.connections[id]? = some c' ∧ c'.info = c.info ∧ c'.device = c.device
  carries : ∀ (n : Nat) (d : Device), bus.devices[n]? = some d →
    ∀ pin, bus'.Carries n pin → bus.Carries n pin
  orderly : bus.Orderly → bus'.Orderly

theorem hears_self (bus : Bus) : Hears (fun _ => []) bus bus where
  devices _ d h := ⟨d, h, .nothing d⟩
  connections _ c h := ⟨c, h, rfl, rfl⟩
  carries _ _ _ _ h := h
  orderly h := h

theorem Hears.trans {news more : Nat → List Exchange} (h : Hears news bus bus')
    (h' : Hears more bus' bus'') : Hears (fun n => more n ++ news n) bus bus'' where
  devices n d hd := by
    obtain ⟨d', hd', hheard⟩ := h.devices n d hd
    obtain ⟨d'', hd'', hheard'⟩ := h'.devices n d' hd'
    exact ⟨d'', hd'', hheard.trans hheard'⟩
  connections id c hc := by
    obtain ⟨c', hc', hinfo, hdevice⟩ := h.connections id c hc
    obtain ⟨c'', hc'', hinfo', hdevice'⟩ := h'.connections id c' hc'
    exact ⟨c'', hc'', hinfo'.trans hinfo, hdevice'.trans hdevice⟩
  carries n d hd pin hpin := by
    obtain ⟨d', hd', -⟩ := h.devices n d hd
    exact h.carries n d hd pin (h'.carries n d' hd' pin hpin)
  orderly ho := h'.orderly (h.orderly ho)

/-- Nothing but the state of devices changes. -/
theorem hears_of_devices {news : Nat → List Exchange}
    (hdevices : ∀ (n : Nat) (d : Device), bus.devices[n]? = some d →
      ∃ d' : Device, bus'.devices[n]? = some d' ∧ d.Heard (news n) d')
    (hplugged : bus'.plugged = bus.plugged) (hconnections : bus'.connections = bus.connections)
    (hlive : bus'.live = bus.live) : Hears news bus bus' where
  devices := hdevices
  connections _ c hc := ⟨c, hconnections ▸ hc, rfl, rfl⟩
  carries n _ _ pin hpin := by rwa [carries_congr hplugged hconnections] at hpin
  orderly h := by
    refine h.of_carries (fun n d hd => ?_) (fun n pin hpin => ?_) (fun p hp => ?_)
    · obtain ⟨d', hd', -⟩ := hdevices n d hd
      exact ⟨d', hd'⟩
    · rwa [carries_congr hplugged hconnections] at hpin
    · rw [hconnections]
      exact h.live p (hlive ▸ hp)

/-! ## What is said over a connection -/

/-- The number of the device that a connection drives. -/
def numberAt? (bus : Bus) (id : ConnectionId) : Option Nat := (bus.connections[id]?).map (·.device)

/-- A connection goes on driving what it drove. -/
theorem Hears.numberAt? {news : Nat → List Exchange} (h : Hears news bus bus')
    (hn : bus.numberAt? id = some n) : bus'.numberAt? id = some n := by
  obtain ⟨c, hc, rfl⟩ := Option.map_eq_some_iff.mp hn
  obtain ⟨c', hc', -, hdevice⟩ := h.connections id c hc
  rw [Bus.numberAt?, hc', Option.map_some, hdevice]

/-- What was said over a connection, the latest first: it was heard by the device that this drives
and by no other. -/
structure Talks (id : ConnectionId) (news : List Exchange) (bus bus' : Bus) : Prop where
  plugged : bus'.plugged = bus.plugged
  connections : bus'.connections = bus.connections
  live : bus'.live = bus.live
  length : bus'.devices.length = bus.devices.length
  others : ∀ n : Nat, bus.numberAt? id ≠ some n → bus'.devices[n]? = bus.devices[n]?
  device : ∀ (n : Nat) (d : Device), bus.numberAt? id = some n → bus.devices[n]? = some d →
    ∃ d' : Device, bus'.devices[n]? = some d' ∧ d.Heard news d'

theorem talks_self (id : ConnectionId) (bus : Bus) : Talks id [] bus bus :=
  ⟨rfl, rfl, rfl, rfl, fun _ _ => rfl, fun _ d _ hd => ⟨d, hd, .nothing d⟩⟩

theorem Talks.numberAt? {news : List Exchange} (h : Talks id news bus bus') :
    bus'.numberAt? = bus.numberAt? := by
  funext other
  rw [Bus.numberAt?, Bus.numberAt?, h.connections]

theorem Talks.trans {news more : List Exchange} (h : Talks id news bus bus')
    (h' : Talks id more bus' bus'') : Talks id (more ++ news) bus bus'' where
  plugged := h'.plugged.trans h.plugged
  connections := h'.connections.trans h.connections
  live := h'.live.trans h.live
  length := h'.length.trans h.length
  others n hn := (h'.others n (by rwa [h.numberAt?])).trans (h.others n hn)
  device n d hn hd := by
    obtain ⟨d', hd', hheard⟩ := h.device n d hn hd
    obtain ⟨d'', hd'', hheard'⟩ := h'.device n d' (by rwa [h.numberAt?]) hd'
    exact ⟨d'', hd'', hheard.trans hheard'⟩

/-- What is heard when something is said over a connection. -/
def newsAt (bus : Bus) (id : ConnectionId) (news : List Exchange) (n : Nat) : List Exchange :=
  if bus.numberAt? id = some n then news else []

theorem Talks.hears {news : List Exchange} (h : Talks id news bus bus') :
    Hears (bus.newsAt id news) bus bus' := by
  refine hears_of_devices (fun n d hd => ?_) h.plugged h.connections h.live
  by_cases hn : bus.numberAt? id = some n
  · rw [newsAt, if_pos hn]
    exact h.device n d hn hd
  · rw [newsAt, if_neg hn]
    exact ⟨d, (h.others n hn).trans hd, .nothing d⟩

/-- The device that a connection drives comes to be another. -/
theorem talks_setDevice {e : Exchange} {connection : Connection}
    (hc : bus.connections[id]? = some connection)
    (hd : bus.devices[connection.device]? = some d) (hheard : d.Heard [e] d') :
    Talks id [e] bus (bus.setDevice connection.device d') := by
  have hnumber : bus.numberAt? id = some connection.device := by rw [numberAt?, hc]; rfl
  refine ⟨rfl, rfl, rfl, List.length_set, fun n hn => ?_, fun n x hn hx => ?_⟩
  · exact List.getElem?_set_ne fun heq => hn (hnumber.trans (congrArg some heq))
  · obtain rfl : connection.device = n := Option.some.inj (hnumber.symm.trans hn)
    obtain rfl : d = x := Option.some.inj (hd.symm.trans hx)
    exact ⟨d', List.getElem?_set_self (List.getElem?_eq_some_iff.mp hd).1, hheard⟩

/-- Whatever is refused on the way, a connection is a session over which one device hears what is
said. -/
theorem notes_sessionsWith (refusals : Refusals) (id : ConnectionId) :
    (sessionsWith refusals id).Notes (Talks id) where
  nothing bus := talks_self id bus
  trans := Talks.trans
  run c bus := by
    simp only [sessionsWith]
    cases refusals id c bus with
    | some e =>
      dsimp only
      unfold refuse
      split
      · exact .inr ⟨rfl, talks_self id bus⟩
      rename_i connection hc
      split
      · exact .inr ⟨rfl, talks_self id bus⟩
      rename_i d hd
      exact .inl (talks_setDevice hc hd (.refused c (.nothing d)))
    | none =>
      simp only [session]
      split
      · exact .inr ⟨rfl, talks_self id bus⟩
      rename_i connection hc
      split
      · exact .inr ⟨rfl, talks_self id bus⟩
      rename_i d hd
      exact .inl (talks_setDevice hc hd (.run c (.nothing d)))

/-- What a session answers is the answer of the device at its other end. -/
theorem run_sessionsWith_eq_ok {refusals : Refusals} {c : Command} {answer : c.Answer}
    (h : (sessionsWith refusals id).run c bus = (.ok answer, bus')) :
    ∃ n d, bus.numberAt? id = some n ∧ bus.devices[n]? = some d ∧
      (d.execute c).1 = .ok answer := by
  simp only [sessionsWith] at h
  cases hrefusal : refusals id c bus with
  | some e =>
    rw [hrefusal] at h
    cases h
  | none =>
    rw [hrefusal] at h
    simp only [session] at h
    split at h
    · cases h
    rename_i connection hc
    split at h
    · cases h
    rename_i d hd
    refine ⟨connection.device, d, by rw [numberAt?, hc]; rfl, hd, ?_⟩
    exact congrArg Prod.fst h

/-! ## What is not heard -/

/-- Connections are taken and given back unheard. -/
theorem hears_modify (bus : Bus) (id : ConnectionId) {f : Connection → Connection}
    (hf : ∀ c, (f c).info = c.info ∧ (f c).device = c.device) :
    Hears (fun _ => []) bus { bus with connections := bus.connections.modify id f } := by
  have hto (other : ConnectionId) (c : Connection) (hc : bus.connections[other]? = some c) :
      ∃ c', (bus.connections.modify id f)[other]? = some c' ∧ c'.info = c.info ∧
        c'.device = c.device := by
    rw [List.getElem?_modify, hc]
    by_cases hid : id = other
    · exact ⟨f c, by simp [hid], hf c⟩
    · exact ⟨c, by simp [hid], rfl, rfl⟩
  have hcarries (n : Nat) (pin : Pin)
      (h : Carries { bus with connections := bus.connections.modify id f } n pin) :
      bus.Carries n pin := by
    rcases h with h | ⟨other, c', hc', hn, hpin⟩
    · exact Or.inl h
    · obtain ⟨c, hc⟩ : ∃ c, bus.connections[other]? = some c := by
        rw [List.getElem?_modify] at hc'
        cases hc : bus.connections[other]? with
        | none =>
          rw [hc] at hc'
          cases hc'
        | some c => exact ⟨c, rfl⟩
      obtain ⟨c'', hc'', hinfo, hdevice⟩ := hto other c hc
      obtain rfl : c'' = c' := Option.some.inj (hc''.symm.trans hc')
      exact Or.inr ⟨other, c, hc, hdevice ▸ hn, hinfo ▸ hpin⟩
  refine ⟨fun _ d hd => ⟨d, hd, .nothing d⟩, hto, fun n _ _ => hcarries n, fun h => ?_⟩
  refine h.of_carries (fun _ d hd => ⟨d, hd⟩) hcarries fun p hp => ?_
  obtain ⟨c, hc, hpin⟩ := h.live p hp
  obtain ⟨c', hc', hinfo, -⟩ := hto p.2 c hc
  exact ⟨c', hc', hinfo.symm ▸ hpin⟩

theorem hears_release (bus : Bus) (id : ConnectionId) :
    Hears (fun _ => []) bus (bus.release id) :=
  hears_modify bus id fun _ => ⟨rfl, rfl⟩

theorem hears_acquire (h : bus.acquire? id = some bus') : Hears (fun _ => []) bus bus' := by
  unfold acquire? at h
  split at h
  · cases h
    exact hears_modify bus id fun _ => ⟨rfl, rfl⟩
  · cases h

theorem devices_acquire (h : bus.acquire? id = some bus') : bus'.devices = bus.devices := by
  unfold acquire? at h
  split at h
  · cases h
    rfl
  · cases h

/-- A device whose settings were changed heard nothing. -/
theorem hears_setDevice (hd : bus.devices[n]? = some d) (htranscript : d'.transcript = d.transcript)
    (hholdings : d'.holdings = d.holdings) : Hears (fun _ => []) bus (bus.setDevice n d') := by
  refine hears_of_devices (fun m x hx => ?_) rfl rfl rfl
  by_cases hm : n = m
  · subst hm
    obtain rfl : d = x := Option.some.inj (hd.symm.trans hx)
    exact ⟨d', List.getElem?_set_self (List.getElem?_eq_some_iff.mp hd).1,
      (Heard.nothing d).changed htranscript hholdings⟩
  · exact ⟨x, (List.getElem?_set_ne hm).trans hx, .nothing x⟩

theorem unlock_alike (d : Device) (password : Option String) :
    (d.unlock password).2.transcript = d.transcript ∧
      (d.unlock password).2.holdings = d.holdings := by
  unfold Device.unlock
  repeat' split
  all_goals exact ⟨rfl, rfl⟩

/-- A connection made under a PIN drives the device plugged in under it. -/
theorem hears_connected (h : Hears (fun _ => []) bus bus') (hn : bus'.numberOf? info.pin = some n) :
    Hears (fun _ => []) bus { bus' with
      connections := bus'.connections ++ [{ info, device := n }]
      live := (info.pin, bus'.connections.length) :: bus'.live } := by
  have hto (id : ConnectionId) (c : Connection) (hc : bus'.connections[id]? = some c) :
      (bus'.connections ++ [{ info, device := n }])[id]? = some c :=
    (List.getElem?_append_left (List.getElem?_eq_some_iff.mp hc).1).trans hc
  have hcarries (m : Nat) (pin : Pin) (hm : Carries { bus' with
      connections := bus'.connections ++ [{ info, device := n }]
      live := (info.pin, bus'.connections.length) :: bus'.live } m pin) :
      bus'.Carries m pin := by
    rcases hm with hm | ⟨id, c, hc, hm, hpin⟩
    · exact Or.inl hm
    · rcases List.mem_append.mp (List.mem_of_getElem? hc) with hmem | hmem
      · obtain ⟨id', hid'⟩ := List.getElem?_of_mem hmem
        exact Or.inr ⟨id', c, hid', hm, hpin⟩
      · obtain rfl := List.mem_singleton.mp hmem
        subst hm hpin
        exact carries_of_numberOf? hn
  refine ⟨h.devices, fun id c hc => ?_, fun m d hd pin hpin => ?_, fun ho => ?_⟩
  · obtain ⟨c', hc', hsame⟩ := h.connections id c hc
    exact ⟨c', hto id c' hc', hsame⟩
  · exact h.carries m d hd pin (hcarries m pin hpin)
  · refine (h.orderly ho).of_carries (fun _ d hd => ⟨d, hd⟩) hcarries fun p hp => ?_
    rcases List.mem_cons.mp hp with rfl | hp
    · exact ⟨_, List.getElem?_concat_length, rfl⟩
    · obtain ⟨c, hc, hpin⟩ := (h.orderly ho).live p hp
      exact ⟨c, hto p.2 c hc, hpin⟩

/-- Connecting is not heard, whatever comes of it. -/
theorem hears_connect (bus : Bus) (info : DeviceInfo) (password : Option String) :
    Hears (fun _ => []) bus (bus.connect info password).2 := by
  unfold connect
  split
  · exact hears_self bus
  split
  · exact hears_self bus
  rename_i n hn
  split
  · exact hears_self bus
  rename_i d hd
  obtain ⟨htranscript, hholdings⟩ := unlock_alike d password
  have hset : Hears (fun _ => []) bus (bus.setDevice n (d.unlock password).2) :=
    hears_setDevice hd htranscript hholdings
  split
  · rename_i hunlock
    rwa [hunlock] at hset
  · rename_i hunlock
    rw [hunlock] at hset
    exact hears_connected hset hn

theorem length_connect (bus : Bus) (info : DeviceInfo) (password : Option String) :
    (bus.connect info password).2.devices.length = bus.devices.length := by
  unfold connect
  split
  · rfl
  split
  · rfl
  split
  · rfl
  split
  · rename_i hunlock
    exact List.length_set
  · exact List.length_set

/-- On an orderly bus, the connection given out for a device was made under its PIN. -/
theorem Orderly.info_of_connect (h : bus.Orderly) {password : Option String}
    (hconnect : bus.connect info password = (.ok id, bus')) :
    ∃ c, bus'.connections[id]? = some c ∧ c.info.pin = info.pin := by
  unfold connect at hconnect
  split at hconnect
  · rename_i hlookup
    cases hconnect
    obtain ⟨before, after, hlive, -⟩ := List.lookup_eq_some_iff.mp hlookup
    exact h.live (info.pin, id) (hlive ▸ List.mem_append_right before List.mem_cons_self)
  split at hconnect
  · cases hconnect
  split at hconnect
  · cases hconnect
  split at hconnect
  · cases hconnect
  · cases hconnect
    exact ⟨_, List.getElem?_concat_length, rfl⟩

/-- A device that is plugged in is a new one, and brings its PIN. -/
theorem hears_plugIn (bus : Bus) (info : DeviceInfo) (d : Device) :
    Hears (fun _ => []) bus (bus.plugIn info d) := by
  have hcarries (n : Nat) (pin : Pin) (h : (bus.plugIn info d).Carries n pin) :
      bus.Carries n pin ∨ n = bus.devices.length ∧ pin = info.pin := by
    rcases h with ⟨p, hp, hn, hpin⟩ | h
    · rcases List.mem_append.mp hp with hp | hp
      · exact Or.inl (Or.inl ⟨p, (List.mem_filter.mp hp).1, hn, hpin⟩)
      · obtain rfl := List.mem_singleton.mp hp
        exact Or.inr ⟨hn.symm, hpin.symm⟩
    · exact Or.inl (Or.inr h)
  have hto (n : Nat) (x : Device) (hx : bus.devices[n]? = some x) :
      (bus.plugIn info d).devices[n]? = some x :=
    (List.getElem?_append_left (List.getElem?_eq_some_iff.mp hx).1).trans hx
  have hnew (n : Nat) (x : Device) (hx : bus.devices[n]? = some x) : n ≠ bus.devices.length :=
    Nat.ne_of_lt (List.getElem?_eq_some_iff.mp hx).1
  refine ⟨fun n x hx => ⟨x, hto n x hx, .nothing x⟩, fun _ c hc => ⟨c, hc, rfl, rfl⟩,
    fun n x hx pin hpin => (hcarries n pin hpin).resolve_right fun h => hnew n x hx h.1,
    fun ho => ⟨fun n pin pin' hpin hpin' => ?_, fun n pin hpin => ?_, ho.live⟩⟩
  · rcases hcarries n pin hpin with hold | ⟨hn, rfl⟩
    · obtain ⟨x, hx⟩ := ho.known n pin hold
      have hold' := (hcarries n pin' hpin').resolve_right fun h => hnew n x hx h.1
      exact ho.distinct n pin pin' hold hold'
    · rcases hcarries n pin' hpin' with hold | ⟨-, rfl⟩
      · obtain ⟨x, hx⟩ := ho.known n pin' hold
        exact absurd hn (hnew n x hx)
      · rfl
  · rcases hcarries n pin hpin with hold | ⟨rfl, -⟩
    · obtain ⟨x, hx⟩ := ho.known n pin hold
      exact ⟨x, hto n x hx⟩
    · exact ⟨d, List.getElem?_concat_length⟩

theorem hears_unplug (bus : Bus) (pin : Pin) : Hears (fun _ => []) bus (bus.unplug pin) := by
  have hcarries (n : Nat) (other : Pin) (h : (bus.unplug pin).Carries n other) :
      bus.Carries n other := by
    rcases h with ⟨p, hp, hn, hpin⟩ | h
    · exact Or.inl ⟨p, (List.mem_filter.mp hp).1, hn, hpin⟩
    · exact Or.inr h
  refine ⟨fun _ d hd => ⟨d, hd, .nothing d⟩, fun _ c hc => ⟨c, hc, rfl, rfl⟩,
    fun n _ _ => hcarries n, fun h => ?_⟩
  exact h.of_carries (fun _ d hd => ⟨d, hd⟩) hcarries fun p hp =>
    h.live p (List.mem_filter.mp hp).1

/-- Every bus built up from nothing is orderly. -/
theorem Orderly.plugIn (h : bus.Orderly) (info : DeviceInfo) (d : Device) :
    (bus.plugIn info d).Orderly :=
  (hears_plugIn bus info d).orderly h

end Palmtop.Device.Bus
