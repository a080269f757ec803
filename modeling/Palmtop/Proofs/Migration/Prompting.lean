import Palmtop.Migration.Attendant

/-! # What the user is asked

A user who is `noted` keeps what he was asked and what he answered, and is otherwise the same
(`Prompter.handle_noted`).  The reply to a request is what he answered to the question that was put
to him; a device that cannot be a destination is neither shown to him nor passed on
(`Prompter.handled_noted`).
-/
namespace Palmtop.Migration

variable {π : Type}

/-- A question that was put to the user, and the answer. -/
inductive Note where
  | password (device : DeviceInfo) (tries : Nat) (answer : Option String)
  | choice (source : DeviceInfo) (candidates : List DeviceInfo) (answer : Option DeviceInfo)

/-- What comes of a question for a destination: nobody is shown the source, and if a device is
passed on, it is the one chosen last and not the source. -/
structure Reply.Chosen (source : DeviceInfo) (news : List Note) (reply : Reply) : Prop where
  shown : ∀ note ∈ news, ∃ candidates answer, note = .choice source candidates answer ∧
    ∀ c ∈ candidates, c.pin ≠ source.pin
  reply : reply = .declined ∨ reply = .undecided ∨ ∃ info candidates,
    reply = .destination info ∧ info.pin ≠ source.pin ∧
      news.getLast? = some (.choice source candidates (some info))

/-- An event was put to the user: what he was asked, and the reply. -/
def Event.Handled (reply : Option Reply) (news : List Note) : Event → Prop
  | .status _ _ _ | .error _ => reply = none ∧ news = []
  | .passwordRequest device tries => ∃ answer : Option String,
    reply = some (.password (answer.getD "")) ∧ news = [.password device tries answer]
  | .destinationRequest source => ∃ chosen : Reply, reply = some chosen ∧ chosen.Chosen source news

namespace Event.Handled

variable {event : Event} {reply : Option Reply} {news : List Note}

theorem of_not_isRequest (h : event.Handled reply news) (he : ¬ event.isRequest = true) :
    reply = none ∧ news = [] := by
  cases event with
  | status | error => exact h
  | passwordRequest | destinationRequest => exact absurd rfl he

/-- Devices are shown only when a destination is asked for. -/
theorem shown {source : DeviceInfo} {candidates : List DeviceInfo} {answer : Option DeviceInfo}
    (h : event.Handled reply news) (hmem : .choice source candidates answer ∈ news) :
    event = .destinationRequest source ∧ ∀ c ∈ candidates, c.pin ≠ source.pin := by
  cases event with
  | status | error =>
    obtain ⟨-, rfl⟩ := h
    cases hmem
  | passwordRequest device tries =>
    obtain ⟨answer, -, rfl⟩ := h
    cases List.mem_singleton.mp hmem
  | destinationRequest source' =>
    obtain ⟨chosen, -, hchosen⟩ := h
    obtain ⟨candidates, answer, ⟨⟩, hpins⟩ := hchosen.shown _ hmem
    exact ⟨rfl, hpins⟩

end Event.Handled

namespace Prompter

/-- The user who also keeps what he was asked, the latest last. -/
def noted (p : Prompter π) : Prompter (π × List Note) where
  password device tries s :=
    let (answer, u) := p.password device tries s.1
    (answer, u, s.2 ++ [.password device tries answer])
  choose source candidates s bus :=
    let (answer, u, bus) := p.choose source candidates s.1 bus
    (answer, (u, s.2 ++ [.choice source candidates answer]), bus)
  status text processed total s := (p.status text processed total s.1, s.2)
  error text s := (p.error text s.1, s.2)

variable (p : Prompter π)

theorem choose_noted {source : DeviceInfo} {candidates : List DeviceInfo} {s : π × List Note}
    {bus bus' : Device.Bus} {answer : Option DeviceInfo} {u : π}
    (h : p.choose source candidates s.1 bus = (answer, u, bus')) :
    p.noted.choose source candidates s bus
      = (answer, (u, s.2 ++ [.choice source candidates answer]), bus') := by
  simp only [noted, h]

theorem chooseDestination_noted (source : DeviceInfo) (limit : Nat) (s : π × List Note)
    (bus : Device.Bus) : p.chooseDestination source limit s.1 bus
      = ((p.noted.chooseDestination source limit s bus).1,
        (p.noted.chooseDestination source limit s bus).2.1.1,
        (p.noted.chooseDestination source limit s bus).2.2) := by
  induction limit generalizing s bus with
  | zero => rfl
  | succ limit ih =>
    unfold chooseDestination
    rcases bus.probe with ⟨e | devices, bus'⟩
    · rfl
    rcases hchoose : p.choose source (devices.filter (·.pin != source.pin)) s.1 bus' with
      ⟨_ | choice, u, bus''⟩
    · simp only [hchoose, p.choose_noted hchoose]
    · simp only [hchoose, p.choose_noted hchoose]
      split
      · exact ih (_, _) bus''
      · rfl

/-- Keeping notes changes nothing. -/
theorem handle_noted (limit : Nat) (event : Event) (s : π × List Note) (bus : Device.Bus) :
    p.handle limit event s.1 bus = ((p.noted.handle limit event s bus).1,
      (p.noted.handle limit event s bus).2.1.1, (p.noted.handle limit event s bus).2.2) := by
  cases event with
  | status | error | passwordRequest => rfl
  | destinationRequest source =>
    simp only [handle, chooseDestination_noted p source limit s bus]

theorem chosen_noted (source : DeviceInfo) (limit : Nat) (s : π × List Note) (bus : Device.Bus) :
    ∃ news, (p.noted.chooseDestination source limit s bus).2.1.2 = s.2 ++ news ∧
      (p.noted.chooseDestination source limit s bus).1.Chosen source news := by
  induction limit generalizing s bus with
  | zero => exact ⟨[], (List.append_nil _).symm, List.forall_mem_nil _, .inr (.inl rfl)⟩
  | succ limit ih =>
    unfold chooseDestination
    rcases bus.probe with ⟨e | devices, bus'⟩
    · exact ⟨[], (List.append_nil _).symm, List.forall_mem_nil _, .inl rfl⟩
    have hshown : ∀ c ∈ devices.filter (·.pin != source.pin), c.pin ≠ source.pin := fun c hc =>
      bne_iff_ne.mp (List.mem_filter.mp hc).2
    rcases hchoose : p.choose source (devices.filter (·.pin != source.pin)) s.1 bus' with
      ⟨_ | choice, u, bus''⟩
    · simp only [p.choose_noted hchoose]
      exact ⟨[_], rfl, List.forall_mem_singleton.mpr ⟨_, _, rfl, hshown⟩, .inl rfl⟩
    simp only [p.choose_noted hchoose]
    split
    · -- the source was named, and the question is put once more
      obtain ⟨news, hnews, hchosen⟩ :=
        ih (p.error _ u, s.2 ++ [.choice source _ (some choice)]) bus''
      refine ⟨_ :: news, hnews.trans (List.append_assoc ..), ?_, ?_⟩
      · exact List.forall_mem_cons.mpr ⟨⟨_, _, rfl, hshown⟩, hchosen.shown⟩
      · refine hchosen.reply.imp_right (.imp_right ?_)
        rintro ⟨info, candidates, hreply, hpin, hlast⟩
        exact ⟨info, candidates, hreply, hpin, by rw [List.getLast?_cons, hlast]; rfl⟩
    · rename_i hpin
      exact ⟨[_], rfl, List.forall_mem_singleton.mpr ⟨_, _, rfl, hshown⟩,
        .inr (.inr ⟨choice, _, rfl, hpin, rfl⟩)⟩

/-- The reply to a request is what the user answered. -/
theorem handled_noted (limit : Nat) (event : Event) (s : π × List Note) (bus : Device.Bus) :
    ∃ news, (p.noted.handle limit event s bus).2.1.2 = s.2 ++ news ∧
      event.Handled (p.noted.handle limit event s bus).1 news := by
  cases event with
  | status | error => exact ⟨[], (List.append_nil _).symm, rfl, rfl⟩
  | passwordRequest device tries => exact ⟨[_], rfl, _, rfl, rfl⟩
  | destinationRequest source =>
    obtain ⟨news, hnews, hchosen⟩ := chosen_noted p source limit s bus
    exact ⟨news, hnews, _, rfl, hchosen⟩

/-- What comes of an event does not depend on whether notes are kept. -/
theorem handled (limit : Nat) (event : Event) (s : π) (bus : Device.Bus) :
    ∃ news, event.Handled (p.handle limit event s bus).1 news := by
  obtain ⟨news, -, hhandled⟩ := p.handled_noted limit event (s, []) bus
  have hplain := p.handle_noted limit event (s, []) bus
  rw [hplain]
  exact ⟨news, hhandled⟩

end Prompter

end Palmtop.Migration
