import Palmtop.Proofs.Migration.Dialogue
import Palmtop.Proofs.Migration.Holding
import Palmtop.Proofs.Migration.Posting
import Palmtop.Proofs.Migration.Prompting

/-! # No request is lost

Worker and attendant move in any order; commands are refused, the attendant gives up in the middle
of an event or throws the queue away, and others do with the devices and the files as they like
(`Act`).  Whenever the worker waits for the user, there is one request that it waits for.  Either
the half that answers it is in one place, with the request, or it is used up and the wait is over
(`Handoff.Serves`).  Every act leaves it so (`Dialogue.Links.act`).
-/
namespace Palmtop

/-- The gate belongs to this request, which is the one asked last.  The request has not been dealt
with; or the half that answers is used up, and the wait gets what there is. -/
structure Handoff.Serves {α : Type} (gate : Handoff α) (asked : Option Migration.Event)
    (requests : List Migration.Event) (request : Migration.Event) : Prop where
  asked : asked = some request
  waiting : gate.waiting = true
  signaler : gate.answering = true ∧ gate.slot = none ∧ requests = [request] ∨
    gate.answering = false ∧ requests = [] ∧
      ∀ cancelled, (gate.waitOrCancel cancelled).isSome = true

namespace Handoff

variable {α : Type} {gate : Handoff α}

/-- An answer that a wait gets was in the slot. -/
theorem slot_of_waitOrCancel {cancelled : Bool} {value : α}
    (h : gate.waitOrCancel cancelled = some (some value)) : gate.slot = some value := by
  unfold waitOrCancel wait at h
  split at h
  · exact Option.some.inj h
  · split at h
    · rename_i hslot
      rw [hslot]
      exact Option.some.inj h
    · split at h
      · cases h
      · cases Option.some.inj h

/-- Without the half that answers, a wait is over. -/
theorem isSome_waitOrCancel (h : gate.answering = false) (cancelled : Bool) :
    (gate.waitOrCancel cancelled).isSome = true := by
  unfold waitOrCancel wait
  split
  · rfl
  · split
    · rfl
    · rw [h]
      rfl

/-- With the request goes the half that answers it, or both are lost. -/
theorem serves_new {asked : Option Migration.Event} {request : Migration.Event} (kept : Bool)
    (h : asked = some request) :
    Serves ({ answering := kept } : Handoff α) asked (if kept then [request] else []) request := by
  refine ⟨h, rfl, ?_⟩
  cases kept with
  | true => exact .inl ⟨rfl, rfl, rfl⟩
  | false => exact .inr ⟨rfl, rfl, isSome_waitOrCancel rfl⟩

end Handoff

namespace Migration

variable {π : Type}

/-! ## Acts -/

/-- What can happen next. -/
inductive Act where
  /-- The worker makes a step, some of its commands being refused on the way. -/
  | work (refusals : Device.Bus.Refusals)
  /-- The attendant takes the next event. -/
  | take
  /-- The attendant puts the event to the user, whom it asks for a destination so often at most
  before others get to move. -/
  | settle (limit : Nat)
  /-- The attendant gives up in the middle of an event. -/
  | collapse
  /-- The queue is thrown away. -/
  | leave
  | cancel
  /-- Others use devices, plug them in and out, and change files. -/
  | meanwhile (bus : Device.Bus) (files : Files)

/-- Whether the worker acts. -/
def Act.isWork : Act → Bool
  | .work _ => true
  | _ => false

namespace Dialogue

/-- Gives up in the middle of an event; a request is let go. -/
def collapse (d : Dialogue π) : Dialogue π :=
  match d.handling with
  | none => d
  | some event =>
    let run := if event.isRequest then d.run.decline else d.run
    { d with run, handling := none }

/-- One act. -/
def act (p : Prompter π) (d : Dialogue π) : Act → Dialogue π
  | .work refusals => { d with run := d.run.step (Device.Bus.sessionsWith refusals) }
  | .take => d.take
  | .settle limit => d.settle p limit
  | .collapse => d.collapse
  | .leave => d.leave
  | .cancel => { d with run := d.run.cancel }
  | .meanwhile bus files => { d with run := { d.run with bus, files } }

end Dialogue

/-! ## What a step does to the requests -/

/-- Whether the worker is about to report, or through. -/
def Stage.isLast : Stage → Bool
  | .ending _ | .finished => true
  | _ => false

/-- The answer that a wait of the worker gets. -/
def Stage.reply? : Stage → Option Reply
  | .awaitingPassword _ gate => gate.slot.map .password
  | .awaitingDestination gate => gate.slot.map .destination
  | _ => none

theorem Stage.reply?_of_not_isAwaiting {stage : Stage} (h : stage.isAwaiting = false) :
    stage.reply? = none := by
  cases stage with
  | awaitingPassword | awaitingDestination => cases h
  | checking | working | taking | closing | ending | finished => rfl

namespace Run

variable {r r' : Run} {sessions : Device.Bus.Sessions}

/-- What a step of the worker does to the requests. -/
inductive Queries (r : Run) : Run → Prop where
  /-- It waits. -/
  | waits (awaiting : r.stage.isAwaiting = true) : Queries r r
  /-- It has nothing to do with the user. -/
  | works {r' : Run} (posts : r.Posts 0 r') (before : r.stage.isAwaiting = false)
      (after : r'.stage.isAwaiting = false)
      (last : r.stage.isLast = true → r'.stage.isLast = true) : Queries r r'
  /-- The wait is over, with an answer or for good. -/
  | returns {r' : Run} (posts : r.Posts 0 r') (before : r.stage.isAwaiting = true)
      (after : r'.stage.isAwaiting = false)
      (answered : r.stage.reply?.isSome = true ∨ r'.stage.isLast = true) : Queries r r'
  | asksPassword {r' : Run} (side : Side) (tries : Nat)
      (posted : r'.posted = .passwordRequest (r.deviceAt side) tries :: r.posted)
      (before : r.stage.isAwaiting = false ∧ r.stage.isLast = false)
      (stage : r'.stage = .awaitingPassword side { answering := r.listening }) : Queries r r'
  | asksDestination {r' : Run}
      (posted : r'.posted = .destinationRequest r.plan.source :: r.posted)
      (before : r.stage.isAwaiting = false ∧ r.stage.isLast = false)
      (stage : r'.stage = .awaitingDestination { answering := r.listening }) : Queries r r'

theorem Moves.listening (h : r.Moves sessions r') : r'.listening = r.listening := by
  cases h <;> rfl

theorem Moves.isAwaiting (h : r.Moves sessions r') (hr : r.stage.isAwaiting = false)
    (hrequests : r.stage.requests = 0) : r'.stage.isAwaiting = false := by
  cases h with
  | rests => exact hr
  | locked stage | asks stage =>
    rw [stage] at hrequests
    cases hrequests
  | _ => rfl

theorem queries_connect {side : Side} {password : Option String}
    (hstage : r.stage = .working (.connect side password)) :
    r.Queries (r.connect side password) := by
  have hbefore : r.stage.isAwaiting = false ∧ r.stage.isLast = false := by
    rw [hstage]
    exact ⟨rfl, rfl⟩
  have hlast {b : Bool} : r.stage.isLast = true → b = true := fun h =>
    absurd (hbefore.2.symm.trans h) Bool.false_ne_true
  unfold connect
  dsimp only
  split
  · exact .works (posts_of_eq rfl) hbefore.1 rfl hlast
  split
  · exact .works (posts_of_eq rfl) hbefore.1 rfl hlast
  · exact .asksPassword side _ rfl hbefore rfl

theorem queries_takePassword {side : Side} {gate : Handoff String} {answer : Option String}
    (hstage : r.stage = .awaitingPassword side gate)
    (hanswer : gate.waitOrCancel r.cancelled = some answer) :
    r.Queries (r.takePassword side answer) := by
  have hbefore : r.stage.isAwaiting = true := by
    rw [hstage]
    rfl
  have hposts := posts_takePassword (n := 0) r side answer
  cases answer with
  | none => exact .returns hposts hbefore rfl (.inr rfl)
  | some password =>
    have hanswered : r.stage.reply?.isSome = true := by
      rw [hstage, Stage.reply?, Handoff.slot_of_waitOrCancel hanswer]
      rfl
    unfold takePassword at hposts ⊢
    dsimp only at hposts ⊢
    split
    · exact .returns (posts_of_eq rfl) hbefore rfl (.inr rfl)
    · exact .returns (posts_of_eq rfl) hbefore rfl (.inl hanswered)

theorem queries_takeDestination {gate : Handoff DeviceInfo} {answer : Option DeviceInfo}
    (hstage : r.stage = .awaitingDestination gate)
    (hanswer : gate.waitOrCancel r.cancelled = some answer) :
    r.Queries (r.takeDestination answer) := by
  have hbefore : r.stage.isAwaiting = true := by
    rw [hstage]
    rfl
  have hposts := posts_takeDestination (n := 0) r answer
  cases answer with
  | none => exact .returns hposts hbefore rfl (.inr rfl)
  | some destination =>
    have hanswered : r.stage.reply?.isSome = true := by
      rw [hstage, Stage.reply?, Handoff.slot_of_waitOrCancel hanswer]
      rfl
    refine .returns hposts hbefore ?_ (.inl hanswered)
    unfold takeDestination
    dsimp only
    split
    · rfl
    · rfl

/-- What has nothing to do with the user is everything but connecting and asking. -/
theorem queries_of_requests (hr : r.stage.isAwaiting = false) (hlast : r.stage.isLast = false)
    (hrequests : r.stage.requests = 0) : r.Queries (r.step sessions) := by
  have hposts := posts_step r sessions
  rw [hrequests] at hposts
  refine .works hposts hr ((moves_step r sessions).isAwaiting hr hrequests) fun h => ?_
  exact absurd (hlast.symm.trans h) Bool.false_ne_true

theorem queries_step (r : Run) (sessions : Device.Bus.Sessions) : r.Queries (r.step sessions) := by
  cases hstage : r.stage with
  | awaitingPassword side gate =>
    cases hanswer : gate.waitOrCancel r.cancelled with
    | none =>
      have hstep : r.step sessions = r := by simp only [step, hstage, hanswer]
      rw [hstep]
      exact .waits (by rw [hstage]; rfl)
    | some answer =>
      have hstep : r.step sessions = r.takePassword side answer := by
        simp only [step, hstage, hanswer]
      rw [hstep]
      exact queries_takePassword hstage hanswer
  | awaitingDestination gate =>
    cases hanswer : gate.waitOrCancel r.cancelled with
    | none =>
      have hstep : r.step sessions = r := by simp only [step, hstage, hanswer]
      rw [hstep]
      exact .waits (by rw [hstage]; rfl)
    | some answer =>
      have hstep : r.step sessions = r.takeDestination answer := by
        simp only [step, hstage, hanswer]
      rw [hstep]
      exact queries_takeDestination hstage hanswer
  | working task =>
    cases task with
    | connect side password =>
      have hstep : r.step sessions = r.connect side password := by
        simp only [step, hstage, perform]
      rw [hstep]
      exact queries_connect hstage
    | ask =>
      have hstep : r.step sessions = r.ask := by simp only [step, hstage, perform]
      rw [hstep]
      exact .asksDestination rfl (by rw [hstage]; exact ⟨rfl, rfl⟩) rfl
    | enterBackup | enterResolve | enterRestore | backUp | restore =>
      exact queries_of_requests (by rw [hstage]; rfl) (by rw [hstage]; rfl) (by rw [hstage]; rfl)
  | checking | taking | closing =>
    exact queries_of_requests (by rw [hstage]; rfl) (by rw [hstage]; rfl) (by rw [hstage]; rfl)
  | ending result =>
    have hstep : r.step sessions = r.conclude result := by simp only [step, hstage]
    rw [hstep]
    exact .works (posts_conclude r result) (by rw [hstage]; rfl) rfl fun _ => rfl
  | finished =>
    have hstep : r.step sessions = r := by simp only [step, hstage]
    rw [hstep]
    exact .works (posts_of_eq rfl) (by rw [hstage]; rfl) (by rw [hstage]; rfl) id

/-! ## The request that the worker waits for -/

/-- The request that the worker waits for is linked to it; otherwise there is none, unless the run
ends without its answer. -/
def Linked (r : Run) (requests : List Event) : Prop :=
  match r.stage with
  | .awaitingPassword side gate => ∃ tries,
    gate.Serves (r.posted.find? (·.isRequest)) requests (.passwordRequest (r.deviceAt side) tries)
  | .awaitingDestination gate =>
    gate.Serves (r.posted.find? (·.isRequest)) requests (.destinationRequest r.plan.source)
  | stage => stage.isLast = true ∨ requests = []

variable {requests rest : List Event}

theorem linked_of_not_isAwaiting (hr : r.stage.isAwaiting = false)
    (h : r.stage.isLast = true ∨ requests = []) : r.Linked requests := by
  unfold Linked
  split
  · rename_i hstage
    rw [hstage] at hr
    cases hr
  · rename_i hstage
    rw [hstage] at hr
    cases hr
  · exact h

theorem Linked.of_not_isAwaiting (h : r.Linked requests) (hr : r.stage.isAwaiting = false) :
    r.stage.isLast = true ∨ requests = [] := by
  unfold Linked at h
  split at h
  · rename_i hstage
    rw [hstage] at hr
    cases hr
  · rename_i hstage
    rw [hstage] at hr
    cases hr
  · exact h

/-- A worker that waits, waits for its request. -/
theorem Linked.cases (h : r.Linked requests) : r.stage.isAwaiting = false ∨
    (∃ side gate tries, r.stage = .awaitingPassword side gate ∧
      gate.Serves (r.posted.find? (·.isRequest)) requests
        (.passwordRequest (r.deviceAt side) tries)) ∨
    ∃ gate, r.stage = .awaitingDestination gate ∧
      gate.Serves (r.posted.find? (·.isRequest)) requests (.destinationRequest r.plan.source) := by
  cases hstage : r.stage with
  | awaitingPassword side gate =>
    simp only [Linked, hstage] at h
    obtain ⟨tries, h⟩ := h
    exact .inr (.inl ⟨side, gate, tries, rfl, h⟩)
  | awaitingDestination gate =>
    simp only [Linked, hstage] at h
    exact .inr (.inr ⟨gate, rfl, h⟩)
  | checking | working | taking | closing | ending | finished => exact .inl rfl

theorem deviceAt_congr (plan : r'.plan = r.plan) (side : Side) :
    r'.deviceAt side = r.deviceAt side := by
  cases side with
  | source => exact congrArg Plan.source plan
  | destination info => rfl

theorem Linked.congr (h : r.Linked requests) (stage : r'.stage = r.stage) (plan : r'.plan = r.plan)
    (posted : r'.posted = r.posted) : r'.Linked requests := by
  unfold Linked at h ⊢
  rw [stage, posted]
  have hdevice : r'.deviceAt = r.deviceAt := funext (deviceAt_congr plan)
  rw [hdevice, plan]
  exact h

end Run
end Migration

namespace Handoff.Serves

variable {α : Type} {gate : Handoff α} {asked : Option Migration.Event}
  {requests rest : List Migration.Event} {request e : Migration.Event}

/-- Once the half that answers is used up, no request is left. -/
theorem close {gate' : Handoff α} (h : gate.Serves asked requests request)
    (waiting : gate'.waiting = gate.waiting) (answering : gate'.answering = false) :
    gate'.Serves asked [] request :=
  ⟨h.asked, waiting.trans h.waiting, .inr ⟨answering, rfl, isSome_waitOrCancel answering⟩⟩

/-- An answer uses it up. -/
theorem answer (h : gate.Serves asked requests request) (answering : gate.answering = true)
    (value : α) : (gate.answer value).Serves asked [] request := by
  rw [Handoff.answer, if_pos answering]
  exact h.close rfl rfl

/-- A request that has not been dealt with is the one, and is the only one. -/
theorem eq_of_cons (h : gate.Serves asked (e :: rest) request) :
    e = request ∧ rest = [] ∧ gate.answering = true ∧ gate.slot = none := by
  rcases h.signaler with ⟨hanswering, hslot, hrequests⟩ | ⟨-, hrequests, -⟩
  · obtain ⟨rfl, rfl⟩ := List.cons.inj hrequests
    exact ⟨rfl, rfl, hanswering, hslot⟩
  · cases hrequests

theorem requests_of_slot (h : gate.Serves asked requests request)
    (hslot : gate.slot.isSome = true) : requests = [] := by
  rcases h.signaler with ⟨-, hnone, -⟩ | ⟨-, hrequests, -⟩
  · rw [hnone] at hslot
    cases hslot
  · exact hrequests

theorem length_le (h : gate.Serves asked requests request) : requests.length ≤ 1 := by
  rcases h.signaler with ⟨-, -, rfl⟩ | ⟨-, rfl, -⟩
  · exact Nat.le_refl 1
  · exact Nat.zero_le 1

end Handoff.Serves

namespace Migration
namespace Run

variable {r r' : Run} {requests rest : List Event} {e : Event}

/-- Once an answer has come, no request is left. -/
theorem Linked.requests_of_reply? (h : r.Linked requests)
    (hreply : r.stage.reply?.isSome = true) : requests = [] := by
  rcases h.cases with hr | ⟨side, gate, tries, hstage, h⟩ | ⟨gate, hstage, h⟩
  · rw [Stage.reply?_of_not_isAwaiting hr] at hreply
    cases hreply
  · rw [hstage, Stage.reply?, Option.isSome_map] at hreply
    exact h.requests_of_slot hreply
  · rw [hstage, Stage.reply?, Option.isSome_map] at hreply
    exact h.requests_of_slot hreply

/-- To a worker that does not wait nothing can be said. -/
theorem receive_of_not_isAwaiting (hr : r.stage.isAwaiting = false) (reply : Option Reply) :
    r.receive reply = r := by
  cases hstage : r.stage with
  | awaitingPassword | awaitingDestination =>
    rw [hstage] at hr
    cases hr
  | checking | working | taking | closing | ending | finished =>
    rcases reply with _ | reply
    · rfl
    · cases reply with
      | undecided => rfl
      | password | destination | declined =>
        simp only [receive, answerPassword, answerDestination, Run.decline, hstage]

theorem linked_of_length_lt (h : r.Linked requests) (hr : r.stage.isAwaiting = false)
    (hless : rest.length < requests.length) : r.Linked rest := by
  refine linked_of_not_isAwaiting hr (.inl ((h.of_not_isAwaiting hr).resolve_right ?_))
  rintro rfl
  exact absurd hless (Nat.not_lt_zero _)

/-- Where the request is let go, nothing is left of it. -/
theorem Linked.decline (h : r.Linked requests) (hless : rest.length < requests.length) :
    r.decline.Linked rest := by
  rcases h.cases with hr | ⟨side, gate, tries, hstage, hserves⟩ | ⟨gate, hstage, hserves⟩
  · have hdecline : r.decline = r := receive_of_not_isAwaiting hr (some .declined)
    rw [hdecline]
    exact linked_of_length_lt h hr hless
  · obtain rfl : rest = [] := List.eq_nil_of_length_eq_zero (by have := hserves.length_le; omega)
    simp only [Run.decline, hstage]
    exact ⟨tries, hserves.close rfl rfl⟩
  · obtain rfl : rest = [] := List.eq_nil_of_length_eq_zero (by have := hserves.length_le; omega)
    simp only [Run.decline, hstage]
    exact hserves.close rfl rfl

/-- The reply to a request goes to the worker that waits for it. -/
theorem Linked.receive {reply : Option Reply} {news : List Note} (h : r.Linked (e :: rest))
    (handled : e.Handled reply news) (hdecided : reply ≠ some .undecided) :
    (r.receive reply).Linked rest := by
  rcases h.cases with hr | ⟨side, gate, tries, hstage, hserves⟩ | ⟨gate, hstage, hserves⟩
  · rw [receive_of_not_isAwaiting hr]
    exact linked_of_length_lt h hr (Nat.lt_succ_self _)
  · obtain ⟨rfl, rfl, hanswering, -⟩ := hserves.eq_of_cons
    obtain ⟨answer, rfl, -⟩ := handled
    simp only [Run.receive, answerPassword, hstage]
    exact ⟨tries, hserves.answer hanswering _⟩
  · obtain ⟨rfl, rfl, hanswering, -⟩ := hserves.eq_of_cons
    obtain ⟨chosen, rfl, hchosen⟩ := handled
    rcases hchosen.reply with rfl | rfl | ⟨info, candidates, rfl, -⟩
    · simp only [Run.receive, Run.decline, hstage]
      exact hserves.close rfl rfl
    · exact absurd rfl hdecided
    · simp only [Run.receive, answerDestination, hstage]
      exact hserves.answer hanswering _

end Run

/-! ## Taking events and letting them go -/

namespace Dialogue

variable {d : Dialogue π} {p : Prompter π}

/-- The requests among the events that nobody has taken yet. -/
def waiting (d : Dialogue π) : List Event := d.queue.filter (·.isRequest)

theorem requests_eq (d : Dialogue π) :
    d.requests = d.handling.toList.filter (·.isRequest) ++ d.waiting := List.filter_append ..

/-- What the worker posts is behind what was posted before. -/
theorem waiting_post {r : Run} {news : List Event} (htaken : d.taken ≤ d.run.posted.length)
    (posted : r.posted = news ++ d.run.posted) (listening : r.listening = d.run.listening) :
    waiting { d with run := r } = d.waiting ++
      if d.run.listening then news.reverse.filter (·.isRequest) else [] := by
  unfold waiting queue
  dsimp only
  rw [listening]
  split
  · rw [posted, List.reverse_append, List.drop_append_of_le_length (by simpa using htaken),
      List.filter_append]
  · rfl

theorem take_eq (d : Dialogue π) (htaken : d.taken ≤ d.run.posted.length) :
    d.take.run = d.run ∧ d.take.requests = d.requests ∧
      d.take.taken ≤ d.run.posted.length ∧ d.take.user = d.user := by
  by_cases hlistening : d.run.listening = true
  · rcases take_cases ⟨hlistening, htaken⟩ with htake | ⟨hattended, hrun, huser, hrequests, -⟩
    · rw [htake]
      exact ⟨rfl, rfl, htaken, rfl⟩
    · exact ⟨hrun, hrequests, hrun ▸ hattended.taken, huser⟩
  · have htake : d.take = d := by
      have hqueue : d.queue = [] := by rw [queue, if_neg hlistening]
      rw [take, hqueue]
      split
      · rename_i hcons
        cases hcons
      · rfl
    rw [htake]
    exact ⟨rfl, rfl, htaken, rfl⟩

theorem waiting_congr {d' : Dialogue π} (posted : d'.run.posted = d.run.posted)
    (listening : d'.run.listening = d.run.listening) (taken : d'.taken = d.taken) :
    d'.waiting = d.waiting := by
  rw [waiting, waiting, queue, queue, posted, listening, taken]

theorem requests_of_handling {e : Event} (h : d.handling = some e) :
    d.requests = (if e.isRequest then [e] else []) ++ d.waiting := by
  rw [requests_eq, h]
  by_cases he : e.isRequest = true
  · simp [he]
  · simp [he]

/-- Whoever waits is linked to his request, and all requests for a destination name the source. -/
structure Links (d : Dialogue π) : Prop where
  taken : d.taken ≤ d.run.posted.length
  linked : d.run.Linked d.requests
  sources : ∀ source, .destinationRequest source ∈ d.requests → source = d.run.plan.source

/-- Fewer requests name no other source. -/
theorem Links.of_subset {d' : Dialogue π} (h : d.Links) (plan : d'.run.plan = d.run.plan)
    (posted : d'.run.posted = d.run.posted) (taken : d'.taken ≤ d.run.posted.length)
    (fewer : d'.requests ⊆ d.requests) (linked : d'.run.Linked d'.requests) : d'.Links :=
  ⟨posted ▸ taken, linked, fun source hsource => plan ▸ h.sources source (fewer hsource)⟩

/-- Others act and leave the requests alone. -/
theorem Links.of_requests_eq {d' : Dialogue π} (h : d.Links) (plan : d'.run.plan = d.run.plan)
    (posted : d'.run.posted = d.run.posted) (taken : d'.taken ≤ d.run.posted.length)
    (requests : d'.requests = d.requests) (stage : d'.run.stage = d.run.stage) : d'.Links :=
  h.of_subset plan posted taken (requests ▸ List.Subset.refl _)
    (requests ▸ h.linked.congr stage plan posted)

/-- The attendant is done with an event. -/
theorem Links.dealt (h : d.Links) {run : Run} {s : π}
    (plan : run.plan = d.run.plan) (posted : run.posted = d.run.posted)
    (listening : run.listening = d.run.listening) (linked : run.Linked d.waiting) :
    Links { d with run, user := s, handling := none } := by
  have hrequests : requests { d with run, user := s, handling := none } = d.waiting := by
    rw [requests_eq]
    exact waiting_congr posted listening rfl
  have hfewer : d.waiting ⊆ d.requests := by
    rw [requests_eq]
    exact List.subset_append_right _ _
  exact h.of_subset plan posted h.taken (hrequests ▸ hfewer) (hrequests ▸ linked)

theorem Links.take (h : d.Links) : d.take.Links := by
  obtain ⟨hrun, hrequests, htaken, -⟩ := d.take_eq h.taken
  exact h.of_requests_eq (hrun ▸ rfl) (hrun ▸ rfl) htaken hrequests (hrun ▸ rfl)

theorem settle_of_handling {limit : Nat} {e : Event} {reply : Option Reply} {s : π}
    {bus : Device.Bus} (hhandling : d.handling = some e)
    (hp : p.handle limit e d.user d.run.bus = (reply, s, bus)) :
    d.settle p limit = { d with
      run := { d.run with bus }.receive reply
      user := s
      handling := if reply = some .undecided then some e else none } := by
  simp only [Dialogue.settle, hhandling, hp]

theorem Links.settle (h : d.Links) (limit : Nat) : (d.settle p limit).Links := by
  cases hhandling : d.handling with
  | none =>
    have hsettle : d.settle p limit = d := by simp only [Dialogue.settle, hhandling]
    rw [hsettle]
    exact h
  | some e =>
    obtain ⟨news, hhandled⟩ := p.handled limit e d.user d.run.bus
    rcases hp : p.handle limit e d.user d.run.bus with ⟨reply, s, bus⟩
    rw [hp] at hhandled
    have hlinked : Run.Linked { d.run with bus } d.requests := h.linked.congr rfl rfl rfl
    rw [settle_of_handling hhandling hp]
    by_cases hundecided : reply = some .undecided
    · -- the attendant stays at the event
      rw [hundecided, if_pos rfl, ← hhandling]
      exact h.of_requests_eq rfl rfl h.taken rfl rfl
    rw [if_neg hundecided]
    refine h.dealt (Run.stirs_receive { d.run with bus } reply).plan
      (Run.posted_receive _ reply) (Run.listening_receive _ reply) ?_
    rw [requests_of_handling hhandling] at hlinked
    by_cases he : e.isRequest = true
    · rw [if_pos he] at hlinked
      exact hlinked.receive hhandled hundecided
    · rw [if_neg he] at hlinked
      obtain ⟨rfl, -⟩ := hhandled.of_not_isRequest he
      exact hlinked

theorem Links.collapse (h : d.Links) : d.collapse.Links := by
  cases hhandling : d.handling with
  | none =>
    have hcollapse : d.collapse = d := by simp only [Dialogue.collapse, hhandling]
    rw [hcollapse]
    exact h
  | some e =>
    have hlinked := h.linked
    rw [requests_of_handling hhandling] at hlinked
    by_cases he : e.isRequest = true
    · have hcollapse : d.collapse = { d with run := d.run.decline, handling := none } := by
        simp only [Dialogue.collapse, hhandling, he, if_true]
      rw [if_pos he] at hlinked
      rw [hcollapse]
      exact h.dealt (Run.stirs_receive d.run (some .declined)).plan
        (Run.posted_receive d.run (some .declined)) (Run.listening_receive d.run (some .declined))
        (hlinked.decline (Nat.lt_succ_self _))
    · have hcollapse : d.collapse = { d with handling := none } := by
        simp only [Dialogue.collapse, hhandling, he, if_false, Bool.false_eq_true]
      rw [if_neg he] at hlinked
      rw [hcollapse]
      exact h.dealt rfl rfl rfl hlinked

theorem Links.leave (h : d.Links) : d.leave.Links := by
  have hrequests : d.leave.requests = d.handling.toList.filter (·.isRequest) := by
    rw [requests_eq]
    exact List.append_nil _
  have hfewer : d.leave.requests ⊆ d.requests := by
    rw [hrequests, requests_eq d]
    exact List.subset_append_left _ _
  by_cases hany : d.queue.any (·.isRequest) = true
  · have hrun : d.leave.run = d.run.decline.stopListening := by
      simp only [Dialogue.leave, hany, if_true]
    have hless : d.leave.requests.length < d.requests.length := by
      obtain ⟨e, he, hrequest⟩ := List.any_eq_true.mp hany
      have hwaiting : 0 < d.waiting.length :=
        List.length_pos_of_mem (List.mem_filter.mpr ⟨he, hrequest⟩)
      rw [hrequests, requests_eq d, List.length_append]
      omega
    have hstirs := Run.stirs_receive d.run (some .declined)
    refine h.of_subset (hrun ▸ hstirs.plan) ?_ h.taken hfewer ?_
    · rw [hrun]
      exact Run.posted_receive d.run (some .declined)
    · rw [hrun]
      exact (h.linked.decline hless).congr rfl rfl rfl
  · have hwaiting : d.waiting = [] := List.filter_eq_nil_iff.mpr fun e he hrequest =>
      hany (List.any_eq_true.mpr ⟨e, he, hrequest⟩)
    have hrun : d.leave.run = d.run.stopListening := by
      simp only [Dialogue.leave, hany, if_false, Bool.false_eq_true]
    refine h.of_requests_eq (hrun ▸ rfl) (hrun ▸ rfl) h.taken ?_ (hrun ▸ rfl)
    rw [hrequests, requests_eq d, hwaiting, List.append_nil]

/-! ## Asking -/

/-- The worker has posted `news`, the latest first. -/
theorem requests_post {r : Run} {news : List Event} (htaken : d.taken ≤ d.run.posted.length)
    (posted : r.posted = news ++ d.run.posted) (listening : r.listening = d.run.listening) :
    requests { d with run := r } = d.requests ++
      if d.run.listening then news.reverse.filter (·.isRequest) else [] := by
  rw [requests_eq, requests_eq d, List.append_assoc, waiting_post htaken posted listening]

/-- A worker that is not waiting has asked nothing, or one thing. -/
theorem Links.post (h : d.Links) {r : Run} {news : List Event} (plan : r.plan = d.run.plan)
    (listening : r.listening = d.run.listening) (posted : r.posted = news ++ d.run.posted)
    (sources : ∀ source, .destinationRequest source ∈ news → source = d.run.plan.source)
    (linked : r.Linked (d.requests ++
      if d.run.listening then news.reverse.filter (·.isRequest) else [])) :
    Links { d with run := r } := by
  have hrequests := requests_post h.taken posted listening
  refine ⟨?_, hrequests ▸ linked, fun source hsource => ?_⟩
  · dsimp only
    rw [posted, List.length_append]
    exact Nat.le_add_left_of_le h.taken
  · rw [hrequests, List.mem_append] at hsource
    rw [plan]
    rcases hsource with hbefore | hnew
    · exact h.sources source hbefore
    · split at hnew
      · exact sources source (List.mem_reverse.mp (List.mem_filter.mp hnew).1)
      · cases hnew

/-- No request is posted. -/
theorem Links.post_none (h : d.Links) {r : Run} (plan : r.plan = d.run.plan)
    (listening : r.listening = d.run.listening) (posts : d.run.Posts 0 r)
    (linked : r.Linked d.requests) : Links { d with run := r } := by
  obtain ⟨news, hposted, hcount⟩ := posts
  have hnone : ∀ e ∈ news, ¬ e.isRequest = true := List.countP_eq_zero.mp (Nat.le_zero.mp hcount)
  refine h.post plan listening hposted (fun source hsource => absurd rfl (hnone _ hsource)) ?_
  have hfilter : news.reverse.filter (·.isRequest) = [] :=
    List.filter_eq_nil_iff.mpr fun e he => hnone e (List.mem_reverse.mp he)
  rw [hfilter, ite_self, List.append_nil]
  exact linked

/-- The worker asks for something, and waits. -/
theorem Links.post_request (h : d.Links) {r : Run} {request : Event} (plan : r.plan = d.run.plan)
    (listening : r.listening = d.run.listening) (posted : r.posted = request :: d.run.posted)
    (before : d.run.stage.isAwaiting = false ∧ d.run.stage.isLast = false)
    (isRequest : request.isRequest = true)
    (source : ∀ source, request = .destinationRequest source → source = d.run.plan.source)
    (linked : r.Linked (if d.run.listening then [request] else [])) :
    Links { d with run := r } := by
  have hnone : d.requests = [] :=
    (h.linked.of_not_isAwaiting before.1).resolve_left (Bool.eq_false_iff.mp before.2)
  have hposted : r.posted = [request] ++ d.run.posted := posted
  refine h.post plan listening hposted (fun s hs => source s (List.mem_singleton.mp hs).symm) ?_
  rw [hnone, List.nil_append, List.reverse_singleton, List.filter_singleton, isRequest]
  exact linked

theorem Links.worked (h : d.Links) {r : Run} (queries : d.run.Queries r)
    (plan : r.plan = d.run.plan) (listening : r.listening = d.run.listening) :
    Links { d with run := r } := by
  cases queries with
  | waits => exact h
  | works posts before after last =>
    refine h.post_none plan listening posts (Run.linked_of_not_isAwaiting after ?_)
    exact (h.linked.of_not_isAwaiting before).imp_left last
  | returns posts before after answered =>
    refine h.post_none plan listening posts (Run.linked_of_not_isAwaiting after ?_)
    exact answered.symm.imp_right h.linked.requests_of_reply?
  | asksPassword side tries posted before stage =>
    refine h.post_request plan listening posted before rfl nofun ?_
    have hdevice : r.deviceAt side = d.run.deviceAt side := Run.deviceAt_congr plan side
    simp only [Run.Linked, stage, posted, hdevice]
    exact ⟨tries, Handoff.serves_new _ rfl⟩
  | asksDestination posted before stage =>
    refine h.post_request plan listening posted before rfl ?_ ?_
    · rintro source ⟨⟩
      rfl
    · simp only [Run.Linked, stage, posted, plan]
      exact Handoff.serves_new _ rfl

theorem Links.work (h : d.Links) (refusals : Device.Bus.Refusals) :
    Links { d with run := d.run.step (Device.Bus.sessionsWith refusals) } := by
  have hmoves := Run.moves_step d.run (Device.Bus.sessionsWith refusals)
  exact h.worked (Run.queries_step d.run _) hmoves.plan hmoves.listening

theorem Links.act (h : d.Links) (p : Prompter π) (a : Act) : (d.act p a).Links := by
  cases a with
  | work refusals => exact h.work refusals
  | take => exact h.take
  | settle limit => exact h.settle limit
  | collapse => exact h.collapse
  | leave => exact h.leave
  | cancel => exact h.of_requests_eq rfl rfl h.taken rfl rfl
  | meanwhile bus files => exact h.of_requests_eq rfl rfl h.taken rfl rfl

end Dialogue

end Migration

end Palmtop
