import Palmtop.Migration.Dialogue

/-! # The course of a migration

A run *completes* (`Run.Completes`) when the worker, left alone and given the replies to the
questions it asks, comes to its end in a bounded number of steps.  This speaks of the worker alone.
Of the user it is said apart which questions are answered, and how (`Prompter.Gives`): in order, and
whatever else the user is told before and between.
-/
namespace Palmtop.Migration

/-! ## The worker -/

/-- The same devices are plugged in, and probing goes as well. -/
structure LooksLike (bus bus' : Device.Bus) : Prop where
  plugged : bus'.plugged = bus.plugged
  failingProbes : bus'.failingProbes = bus.failingProbes

/-- A request and the reply to it. -/
abbrev Question := Event × Reply

/-- The worker waits for the reply to a question. -/
structure Run.Asks (world : Device.Bus) (q : Question) (r : Run) : Prop where
  isRequest : q.1.isRequest = true
  decided : q.2 ≠ .undecided
  still : r.step = r
  world : LooksLike world r.bus

/-- In so many steps, and given the replies to these questions, the run comes to an end with this
property. -/
inductive Run.Completes (world : Device.Bus) (Q : Run → Prop) :
    Nat → List Question → Run → Prop where
  | ended {r : Run} (finished : r.stage = .finished) (result : Q r) : Completes world Q 0 [] r
  | work {k : Nat} {qs : List Question} {r r' : Run} (news : Option Event) (step : r.step = r')
      (posted : r'.posted = news.toList ++ r.posted) (listening : r'.listening = r.listening)
      (quiet : ∀ e ∈ news, e.isRequest = false) (rest : Completes world Q k qs r') :
      Completes world Q (k + 1) qs r
  | ask {k : Nat} {q : Question} {qs : List Question} {r r' : Run} (step : r.step = r')
      (posted : r'.posted = q.1 :: r.posted) (listening : r'.listening = r.listening)
      (asks : r'.Asks world q) (rest : Completes world Q k qs (r'.receive (some q.2))) :
      Completes world Q (k + 1) (q :: qs) r

variable {world : Device.Bus} {Q : Run → Prop} {k : Nat} {q : Question} {qs : List Question}

theorem Run.step_of_finished {r : Run} (h : r.stage = .finished) : r.step = r := by
  rw [Run.step, h]

/-- A run that does not move is over. -/
theorem Run.Completes.of_still {r : Run} (h : r.Completes world Q k qs) (hr : r.step = r) :
    r.stage = .finished ∧ Q r := by
  induction h with
  | ended hfinished hQ => exact ⟨hfinished, hQ⟩
  | work _ hstep _ _ _ _ ih =>
    rw [hr] at hstep
    subst hstep
    exact ih hr
  | ask hstep hposted =>
    -- it cannot have posted its question by not moving
    rw [hr] at hstep
    rw [← hstep] at hposted
    exact absurd (congrArg List.length hposted) (by simp)

/-- Given the replies to these questions, the run comes to an end with this property. -/
def Run.Ends (world : Device.Bus) (Q : Run → Prop) (qs : List Question) (r : Run) : Prop :=
  ∃ k, r.Completes world Q k qs

/-- A property that follows holds in the end as well. -/
theorem Run.Completes.imp {Q' : Run → Prop} {r : Run} (h : r.Completes world Q k qs)
    (hQ : ∀ r, Q r → Q' r) : r.Completes world Q' k qs := by
  induction h with
  | ended hfinished hresult => exact .ended hfinished (hQ _ hresult)
  | work news hstep hposted hlistening hquiet _ ih =>
    exact .work news hstep hposted hlistening hquiet ih
  | ask hstep hposted hlistening hasks _ ih => exact .ask hstep hposted hlistening hasks ih

namespace Run
variable {r r' : Run}

theorem ends_of_finished (h : r.stage = .finished) (hQ : Q r) : r.Ends world Q [] :=
  ⟨0, .ended h hQ⟩

/-- A step by which nothing is told. -/
theorem Ends.of_step (h : r'.Ends world Q qs) (step : r.step = r') (posted : r'.posted = r.posted)
    (listening : r'.listening = r.listening) : r.Ends world Q qs := by
  obtain ⟨k, hk⟩ := h
  exact ⟨k + 1, .work none step posted listening nofun hk⟩

/-- A step by which something is told that is no request. -/
theorem Ends.of_telling {e : Event} (h : r'.Ends world Q qs) (step : r.step = r')
    (posted : r'.posted = e :: r.posted) (listening : r'.listening = r.listening)
    (quiet : e.isRequest = false) : r.Ends world Q qs := by
  obtain ⟨k, hk⟩ := h
  refine ⟨k + 1, .work (some e) step posted listening ?_ hk⟩
  rintro _ ⟨⟩
  exact quiet

/-- A step by which something is asked. -/
theorem Ends.of_asking (h : (r'.receive (some q.2)).Ends world Q qs) (step : r.step = r')
    (posted : r'.posted = q.1 :: r.posted) (listening : r'.listening = r.listening)
    (asks : r'.Asks world q) : r.Ends world Q (q :: qs) := by
  obtain ⟨k, hk⟩ := h
  exact ⟨k + 1, .ask step posted listening asks hk⟩

/-- Nobody cancelled. -/
theorem Ends.checking {task : Task} (h : (r.goTo (.working task)).Ends world Q qs)
    (hc : r.cancelled = false) : (r.goTo (.checking task)).Ends world Q qs :=
  h.of_step (if_neg (by simp [goTo, hc])) rfl rfl

/-- The errors the user was told so far, the latest first. -/
def errors (r : Run) : List String :=
  r.posted.filterMap fun
    | .error text => some text
    | _ => none

/-- What a phase leaves as it found it, giving up no database and telling no error. -/
structure Keeps (r r' : Run) : Prop where
  plan : r'.plan = r.plan
  skipped : r'.report.skipped = r.report.skipped
  cancelled : r'.cancelled = r.cancelled
  listening : r'.listening = r.listening
  errors : r'.errors = r.errors

theorem Keeps.trans {r'' : Run} (h : r.Keeps r') (h' : r'.Keeps r'') : r.Keeps r'' :=
  ⟨h'.plan.trans h.plan, h'.skipped.trans h.skipped, h'.cancelled.trans h.cancelled,
    h'.listening.trans h.listening, h'.errors.trans h.errors⟩

/-- What a phase does that gives up these databases and tells these errors, the latest first. -/
structure Tells (r : Run) (given errors : List String) (r' : Run) : Prop where
  plan : r'.plan = r.plan
  skipped : r'.report.skipped = r.report.skipped ++ given
  cancelled : r'.cancelled = r.cancelled
  listening : r'.listening = r.listening
  errors : r'.errors = errors ++ r.errors

theorem Keeps.tells (h : r.Keeps r') : r.Tells [] [] r' :=
  ⟨h.plan, h.skipped.trans (List.append_nil _).symm, h.cancelled, h.listening, h.errors⟩

theorem Tells.trans {r'' : Run} {given given' texts texts' : List String}
    (h : r.Tells given texts r') (h' : r'.Tells given' texts' r'') :
    r.Tells (given ++ given') (texts' ++ texts) r'' where
  plan := h'.plan.trans h.plan
  skipped := by rw [h'.skipped, h.skipped, List.append_assoc]
  cancelled := h'.cancelled.trans h.cancelled
  listening := h'.listening.trans h.listening
  errors := by rw [h'.errors, h.errors, List.append_assoc]

@[simp] theorem bus_goTo (r : Run) (stage : Stage) : (r.goTo stage).bus = r.bus := rfl

theorem keeps_postBlock (text : String) (processed total : Nat) :
    r.Keeps (r.postBlock text processed total) := by
  unfold postBlock
  split
  · exact ⟨rfl, rfl, rfl, rfl, rfl⟩
  · exact ⟨rfl, rfl, rfl, rfl, rfl⟩

@[simp] theorem bus_postBlock (text : String) (processed total : Nat) :
    (r.postBlock text processed total).bus = r.bus := by
  unfold postBlock
  split <;> rfl

@[simp] theorem files_postBlock (text : String) (processed total : Nat) :
    (r.postBlock text processed total).files = r.files := by
  unfold postBlock
  split <;> rfl

/-- Where the worker stood plays no part. -/
theorem goTo_postBlock (r : Run) (text : String) (processed total : Nat) (stage stage' : Stage) :
    ((r.goTo stage).postBlock text processed total).goTo stage'
      = (r.postBlock text processed total).goTo stage' := by
  by_cases h : processed % r.plan.blockSize = 0
  · rw [postBlock, postBlock, if_pos h, if_pos (show processed % (r.goTo stage).plan.blockSize = 0
      from h)]
    rfl
  · rw [postBlock, postBlock, if_neg h, if_neg (show ¬ processed % (r.goTo stage).plan.blockSize = 0
      from h)]
    rfl

/-- A step that ends with a status for a full block. -/
theorem Ends.of_block {text : String} {processed total : Nat} {stage : Stage}
    (h : ((r'.postBlock text processed total).goTo stage).Ends world Q qs)
    (step : r.step = (r'.postBlock text processed total).goTo stage)
    (posted : r'.posted = r.posted) (listening : r'.listening = r.listening) :
    r.Ends world Q qs := by
  unfold postBlock at h step
  split at step
  · rename_i hblock
    rw [if_pos hblock] at h
    exact h.of_telling step (congrArg _ posted) listening rfl
  · rename_i hblock
    rw [if_neg hblock] at h
    exact h.of_step step posted listening

end Run

@[simp] theorem Run.posted_receive (r : Run) (reply : Option Reply) :
    (r.receive reply).posted = r.posted := by
  unfold Run.receive Run.answerPassword Run.answerDestination Run.decline
  repeat' split
  all_goals rfl

@[simp] theorem Run.listening_receive (r : Run) (reply : Option Reply) :
    (r.receive reply).listening = r.listening := by
  unfold Run.receive Run.answerPassword Run.answerDestination Run.decline
  repeat' split
  all_goals rfl

theorem Run.receive_of_finished {r : Run} (h : r.stage = .finished) (reply : Option Reply) :
    r.receive reply = r := by
  unfold Run.receive Run.answerPassword Run.answerDestination Run.decline
  simp only [h]
  repeat' split
  all_goals rfl

/-! ## The user -/

section user
variable {π : Type} (p : Prompter π) (limit : Nat)

/-- The user's mind after being told this and that. -/
inductive Prompter.Told : π → π → Prop where
  | nothing (u : π) : Told u u
  | status {u v : π} (text : String) (processed total : Nat) (before : Told u v) :
      Told u (p.status text processed total v)
  | error {u v : π} (text : String) (before : Told u v) : Told u (p.error text v)

/-- The user gives these replies to these questions, one after the other, whatever is said in
between. -/
def Prompter.Gives (world : Device.Bus) : List Question → π → Prop
  | [], _ => True
  | q :: qs, u => ∀ v, p.Told u v → ∀ bus, LooksLike world bus →
    ∃ w, p.handle limit q.1 v bus = (some q.2, w, bus) ∧ Gives world qs w

variable {p limit} {u v w : π}

theorem Prompter.Told.trans (h : p.Told u v) (h' : p.Told v w) : p.Told u w := by
  induction h' with
  | nothing => exact h
  | status text processed total _ ih => exact .status text processed total ih
  | error text _ ih => exact .error text ih

theorem Prompter.Gives.told (h : p.Gives limit world qs u) (ht : p.Told u v) :
    p.Gives limit world qs v := by
  cases qs with
  | nil => trivial
  | cons q qs => exact fun w hw => h w (ht.trans hw)

/-- The user looks at the bus from outside. -/
theorem Prompter.Gives.of_looksLike {world world' : Device.Bus}
    (h : p.Gives limit world qs u) (hw : LooksLike world world') : p.Gives limit world' qs u := by
  induction qs generalizing u with
  | nil => trivial
  | cons q qs ih =>
    intro v hv bus hbus
    obtain ⟨w, hp, hrest⟩ := h v hv bus
      ⟨hbus.plugged.trans hw.plugged, hbus.failingProbes.trans hw.failingProbes⟩
    exact ⟨w, hp, ih hrest⟩

/-- What is no request gets no reply and leaves the bus alone. -/
theorem Prompter.handle_of_not_isRequest {e : Event} (h : e.isRequest = false) (u : π)
    (bus : Device.Bus) : ∃ v, p.handle limit e u bus = (none, v, bus) ∧ p.Told u v := by
  cases e with
  | status text processed total => exact ⟨_, rfl, .status text processed total (.nothing u)⟩
  | error text => exact ⟨_, rfl, .error text (.nothing u)⟩
  | passwordRequest device tries => cases h
  | destinationRequest source => cases h

end user

end Palmtop.Migration
