import Palmtop.Proofs.Migration.Requests

/-! # A worker that waits is served

A `Scene` is a dialogue with what can be seen of it from outside: how many waits of the worker are
over, and which connections the worker holds.  The user keeps notes of what he was asked, which
changes nothing (`Scene.forget_after`).

Whatever happens from the start on, a worker that waits for the user holds no connection and has one
request open, which nobody has dealt with yet or which is answered (`Scene.served_after`).  What it
gets is what the user answered to this request; the source is not among the destinations.
-/
namespace Palmtop.Migration

variable {π : Type}

/-- A dialogue, and what can be seen of it from outside. -/
structure Scene (π : Type) where
  dialogue : Dialogue π
  /-- How many waits for the user are over. -/
  returned : Nat := 0
  /-- The connections that the worker took and that have been held since. -/
  mine : Device.ConnectionId → Prop := fun _ => False

namespace Scene

/-- Before anything has happened. -/
def start (plan : Plan) (bus : Device.Bus) (files : Files) (user : π) : Scene π :=
  { dialogue := { run := { plan, bus, files }, user } }

/-- One act. -/
def act (p : Prompter π) (s : Scene π) (a : Act) : Scene π :=
  let before := s.dialogue.run
  let dialogue := s.dialogue.act p a
  let after := dialogue.run
  { dialogue
    returned :=
      if before.stage.isAwaiting && !after.stage.isAwaiting then s.returned + 1 else s.returned
    mine := fun id => after.bus.isHeld id = true ∧
      (s.mine id ∨ a.isWork = true ∧ before.bus.isHeld id = false) }

/-- These acts, one after the other. -/
def after (p : Prompter π) (s : Scene π) (acts : List Act) : Scene π := acts.foldl (act p) s

end Scene

/-! ## Notes -/

/-- The dialogue with a user who keeps no notes. -/
def Dialogue.forget (d : Dialogue (π × List Note)) : Dialogue π :=
  { run := d.run, user := d.user.1, taken := d.taken, handling := d.handling }

theorem Dialogue.forget_act (p : Prompter π) (d : Dialogue (π × List Note)) (a : Act) :
    (d.act p.noted a).forget = d.forget.act p a := by
  cases a with
  | work | leave | cancel | meanwhile => rfl
  | take =>
    have hqueue : d.forget.queue = d.queue := rfl
    cases hhandling : d.handling with
    | some e => simp only [act, take, forget, hhandling]
    | none =>
      cases hd : d.queue with
      | nil | cons =>
        rw [hd] at hqueue
        simp only [act, take, hhandling, hd, hqueue]
        simp only [forget, hhandling]
  | settle limit =>
    cases hhandling : d.handling with
    | none => simp only [act, settle, forget, hhandling]
    | some e =>
      have hplain := p.handle_noted limit e d.user d.run.bus
      simp only [act, settle, forget, hhandling, hplain]
  | collapse =>
    cases hhandling : d.handling with
    | none => simp only [act, collapse, forget, hhandling]
    | some e => simp only [act, collapse, forget, hhandling]

namespace Scene

/-- The scene with a user who keeps no notes. -/
def forget (s : Scene (π × List Note)) : Scene π :=
  { dialogue := s.dialogue.forget, returned := s.returned, mine := s.mine }

/-- Keeping notes changes nothing. -/
theorem forget_after (p : Prompter π) (s : Scene (π × List Note)) (acts : List Act) :
    (s.after p.noted acts).forget = s.forget.after p acts := by
  induction acts generalizing s with
  | nil => rfl
  | cons a acts ih =>
    have hact : (s.act p.noted a).forget = s.forget.act p a := by
      have hdialogue := s.dialogue.forget_act p a
      have hrun : (s.dialogue.act p.noted a).run = (s.dialogue.forget.act p a).run :=
        congrArg Dialogue.run hdialogue
      simp only [forget, act, hdialogue, hrun]
      rfl
    exact (ih _).trans (congrArg (·.after p acts) hact)

end Scene

/-! ## What the worker notices -/

theorem Stage.Alike.isAwaiting {stage stage' : Stage} (h : stage.Alike stage') :
    stage'.isAwaiting = stage.isAwaiting := by
  cases h <;> rfl

theorem Stage.Alike.connection? {stage stage' : Stage} (h : stage.Alike stage') :
    stage'.connection? = stage.connection? := by
  cases h <;> rfl

/-- Others leave the worker where it is, and post nothing. -/
theorem Dialogue.act_of_not_isWork (p : Prompter π) (d : Dialogue π) {a : Act}
    (ha : a.isWork = false) : (d.act p a).run.plan = d.run.plan ∧
      (d.act p a).run.posted = d.run.posted ∧ d.run.stage.Alike (d.act p a).run.stage := by
  have hreceive (r : Run) (reply : Option Reply) : (r.receive reply).plan = r.plan ∧
      (r.receive reply).posted = r.posted ∧ r.stage.Alike (r.receive reply).stage :=
    ⟨(r.stirs_receive reply).plan, r.posted_receive reply, (r.stirs_receive reply).stage⟩
  cases a with
  | work => cases ha
  | cancel | meanwhile => exact ⟨rfl, rfl, .self _⟩
  | take =>
    simp only [act, take]
    split
    · exact ⟨rfl, rfl, .self _⟩
    · exact ⟨rfl, rfl, .self _⟩
  | settle limit =>
    simp only [act, settle]
    split
    · exact ⟨rfl, rfl, .self _⟩
    · exact hreceive { d.run with bus := _ } _
  | collapse =>
    simp only [act, collapse]
    split
    · exact ⟨rfl, rfl, .self _⟩
    · split
      · exact hreceive d.run (some .declined)
      · exact ⟨rfl, rfl, .self _⟩
  | leave =>
    simp only [act, leave]
    split
    · exact hreceive d.run (some .declined)
    · exact ⟨rfl, rfl, .self _⟩

namespace Run

variable {r r' : Run}

/-- How many requests the worker has posted. -/
def asked (r : Run) : Nat := r.posted.countP (·.isRequest)

theorem asked_of_posts (h : r.Posts 0 r') : r'.asked = r.asked := by
  obtain ⟨news, hposted, hcount⟩ := h
  rw [asked, hposted, List.countP_append, Nat.le_zero.mp hcount, Nat.zero_add, asked]

theorem asked_of_cons {request : Event} (hrequest : request.isRequest = true)
    (h : r'.posted = request :: r.posted) : r'.asked = r.asked + 1 := by
  rw [asked, h, List.countP_cons, hrequest, if_pos rfl, asked]

/-- If a request is open when the worker waits and at no other time, it is so after its step. -/
theorem Queries.asked {n : Nat} (h : r.Queries r')
    (hr : r.asked = n + if r.stage.isAwaiting then 1 else 0) :
    r'.asked = (if r.stage.isAwaiting && !r'.stage.isAwaiting then n + 1 else n) +
      if r'.stage.isAwaiting then 1 else 0 := by
  cases h with
  | waits =>
    rw [Bool.and_not_self]
    exact hr
  | works posts before after =>
    rw [asked_of_posts posts, hr, before, after]
    rfl
  | returns posts before after =>
    rw [asked_of_posts posts, hr, before, after]
    rfl
  | asksPassword side tries posted before stage | asksDestination posted before stage =>
    rw [asked_of_cons rfl posted, hr, before.1, stage]
    rfl

end Run

namespace Scene

/-- What is true of a scene at any time, whoever the user is. -/
structure Sound (s : Scene π) : Prop where
  links : s.dialogue.Links
  /-- Every wait was for a request, and every request is waited for. -/
  asked : s.dialogue.run.asked = s.returned + if s.dialogue.run.stage.isAwaiting then 1 else 0
  /-- The worker holds what it works over. -/
  holds : ∀ id, s.mine id → s.dialogue.run.stage.connection? = some id

theorem sound_start (plan : Plan) (bus : Device.Bus) (files : Files) (user : π) :
    (start plan bus files user).Sound :=
  ⟨⟨Nat.le_refl 0, .inr rfl, nofun⟩, rfl, nofun⟩

theorem Sound.work {s : Scene π} (h : s.Sound) (p : Prompter π) (refusals : Device.Bus.Refusals) :
    (s.act p (.work refusals)).Sound where
  links := h.links.work refusals
  asked := (Run.queries_step s.dialogue.run _).asked h.asked
  holds id hmine := by
    rcases (Run.moves_step s.dialogue.run _).isHeld hmine.1 with ⟨hbefore, hsame⟩ | hnow
    · rcases hmine.2 with hmine | ⟨-, hfree⟩
      · exact hsame (h.holds id hmine)
      · exact absurd (hfree.symm.trans hbefore) Bool.false_ne_true
    · exact hnow

/-- What others do is noticed neither by the worker nor by those who count. -/
theorem Sound.of_not_isWork {s : Scene π} (h : s.Sound) (p : Prompter π) {a : Act}
    (ha : a.isWork = false) : (s.act p a).Sound := by
  obtain ⟨-, hposted, halike⟩ := s.dialogue.act_of_not_isWork p ha
  refine ⟨h.links.act p a, ?_, fun id hmine => ?_⟩
  · have hasked : (s.dialogue.act p a).run.asked = s.dialogue.run.asked := by
      rw [Run.asked, hposted, Run.asked]
    simp only [Scene.act, hasked, halike.isAwaiting, Bool.and_not_self]
    exact h.asked
  · obtain ⟨-, hmine | ⟨hwork, -⟩⟩ := hmine
    · exact halike.connection?.trans (h.holds id hmine)
    · exact absurd (ha.symm.trans hwork) Bool.false_ne_true

theorem Sound.act {s : Scene π} (h : s.Sound) (p : Prompter π) (a : Act) : (s.act p a).Sound := by
  cases a with
  | work refusals => exact h.work p refusals
  | take | settle | collapse | leave | cancel | meanwhile => exact h.of_not_isWork p rfl

end Scene

/-! ## What the user answered -/

namespace Run

variable {r r' : Run} {notes : List Note}

/-- The answer to the request asked last is what came of putting it to the user, who was asked
nothing else since. -/
def Answered (r : Run) (notes : List Note) : Prop :=
  ∀ reply, r.stage.reply? = some reply → ∃ request news,
    r.posted.find? (·.isRequest) = some request ∧ request.Handled (some reply) news ∧
      news <:+ notes

theorem answered_of_reply?_eq_none (h : r.stage.reply? = none) : r.Answered notes := by
  intro reply hreply
  rw [h] at hreply
  cases hreply

theorem Answered.congr (h : r.Answered notes) (posted : r'.posted = r.posted)
    (reply? : r'.stage.reply? = r.stage.reply?) : r'.Answered notes := by
  rw [Answered, posted, reply?]
  exact h

theorem reply?_decline (r : Run) : r.decline.stage.reply? = r.stage.reply? := by
  unfold Run.decline
  split
  · rename_i hstage
    rw [hstage]
    rfl
  · rename_i hstage
    rw [hstage]
    rfl
  · rfl

theorem Queries.answered (h : r.Queries r') (hr : r.Answered notes) : r'.Answered notes := by
  cases h with
  | waits => exact hr
  | works posts before after | returns posts before after =>
    exact answered_of_reply?_eq_none (Stage.reply?_of_not_isAwaiting after)
  | asksPassword side tries posted before stage | asksDestination posted before stage =>
    exact answered_of_reply?_eq_none (by rw [stage]; rfl)

/-- The worker gets the reply to the request it asked last. -/
theorem Linked.reply?_receive {rest : List Event} {e : Event} {reply : Option Reply} {x : Reply}
    {news : List Note} (h : r.Linked (e :: rest)) (handled : e.Handled reply news)
    (hx : (r.receive reply).stage.reply? = some x) :
    reply = some x ∧ r.posted.find? (·.isRequest) = some e := by
  rcases h.cases with hr | ⟨side, gate, tries, hstage, hserves⟩ | ⟨gate, hstage, hserves⟩
  · rw [receive_of_not_isAwaiting hr, Stage.reply?_of_not_isAwaiting hr] at hx
    cases hx
  · obtain ⟨rfl, -, hanswering, -⟩ := hserves.eq_of_cons
    obtain ⟨answer, rfl, -⟩ := handled
    simp only [Run.receive, answerPassword, hstage, Run.goTo, Stage.reply?, Handoff.answer,
      hanswering, hserves.waiting, if_true] at hx
    exact ⟨hx, hserves.asked⟩
  · obtain ⟨rfl, -, hanswering, hslot⟩ := hserves.eq_of_cons
    obtain ⟨chosen, rfl, hchosen⟩ := handled
    refine ⟨?_, hserves.asked⟩
    have hnone : r.stage.reply? = none := by
      rw [hstage, Stage.reply?, hslot]
      rfl
    rcases hchosen.reply with rfl | rfl | ⟨info, candidates, rfl, -⟩
    · exact absurd (hx.symm.trans (r.reply?_decline.trans hnone)) (Option.some_ne_none x)
    · exact absurd (hx.symm.trans hnone) (Option.some_ne_none x)
    · simp only [Run.receive, answerDestination, hstage, Run.goTo, Stage.reply?, Handoff.answer,
        hanswering, hserves.waiting, if_true] at hx
      exact hx

end Run

namespace Dialogue

variable {d : Dialogue (π × List Note)} {p : Prompter π}

/-- What the user answered, and what he was shown. -/
structure Recorded (d : Dialogue (π × List Note)) : Prop where
  answered : d.run.Answered d.user.2
  shown : ∀ source candidates answer, .choice source candidates answer ∈ d.user.2 →
    source = d.run.plan.source ∧ ∀ c ∈ candidates, c.pin ≠ d.run.plan.source.pin

/-- Others act, and ask the user nothing. -/
theorem Recorded.congr {d' : Dialogue (π × List Note)} (h : d.Recorded)
    (plan : d'.run.plan = d.run.plan) (posted : d'.run.posted = d.run.posted)
    (reply? : d'.run.stage.reply? = d.run.stage.reply?) (notes : d'.user.2 = d.user.2) :
    d'.Recorded := by
  refine ⟨?_, ?_⟩
  · rw [notes]
    exact h.answered.congr posted reply?
  · rw [notes, plan]
    exact h.shown

theorem Recorded.settle (h : d.Recorded) (links : d.Links) (limit : Nat) :
    (d.settle p.noted limit).Recorded := by
  cases hhandling : d.handling with
  | none =>
    have hsettle : d.settle p.noted limit = d := by simp only [Dialogue.settle, hhandling]
    rw [hsettle]
    exact h
  | some e =>
    obtain ⟨news, hnews, hhandled⟩ := p.handled_noted limit e d.user d.run.bus
    rcases hp : p.noted.handle limit e d.user d.run.bus with ⟨reply, s, bus⟩
    rw [hp] at hnews hhandled
    have hlinked : Run.Linked { d.run with bus } d.requests := links.linked.congr rfl rfl rfl
    have hplan : (Run.receive { d.run with bus } reply).plan = d.run.plan :=
      (Run.stirs_receive { d.run with bus } reply).plan
    have hposted : (Run.receive { d.run with bus } reply).posted = d.run.posted :=
      Run.posted_receive _ reply
    rw [settle_of_handling hhandling hp]
    by_cases he : e.isRequest = true
    · have hrequests : d.requests = e :: d.waiting := by
        rw [requests_of_handling hhandling, if_pos he]
        rfl
      rw [hrequests] at hlinked
      refine ⟨fun x hx => ?_, fun source candidates answer hmem => ?_⟩
      · obtain ⟨rfl, hasked⟩ := hlinked.reply?_receive hhandled hx
        exact ⟨e, news, hposted ▸ hasked, hhandled, d.user.2, hnews.symm⟩
      · dsimp only at hmem ⊢
        rw [hplan]
        rw [hnews, List.mem_append] at hmem
        rcases hmem with hbefore | hnow
        · exact h.shown source candidates answer hbefore
        · -- the question is about the request at hand, which names the source of the plan
          obtain ⟨rfl, hpins⟩ := hhandled.shown hnow
          have hsource := links.sources source (hrequests ▸ List.mem_cons_self)
          exact ⟨hsource, hsource ▸ hpins⟩
    · obtain ⟨rfl, rfl⟩ := hhandled.of_not_isRequest he
      exact h.congr rfl rfl rfl (hnews.trans (List.append_nil _))

theorem Recorded.act (h : d.Recorded) (links : d.Links) (a : Act) :
    (d.act p.noted a).Recorded := by
  cases a with
  | work refusals =>
    have hmoves := Run.moves_step d.run (Device.Bus.sessionsWith refusals)
    refine ⟨(Run.queries_step d.run _).answered h.answered, ?_⟩
    simp only [Dialogue.act, hmoves.plan]
    exact h.shown
  | take =>
    obtain ⟨hrun, -, -, huser⟩ := d.take_eq links.taken
    exact h.congr (hrun ▸ rfl) (hrun ▸ rfl) (hrun ▸ rfl) (huser ▸ rfl)
  | settle limit => exact h.settle links limit
  | collapse =>
    simp only [Dialogue.act, Dialogue.collapse]
    split
    · exact h
    · split
      · have hreceive := Run.stirs_receive d.run (some .declined)
        exact h.congr hreceive.plan (Run.posted_receive d.run (some .declined))
          d.run.reply?_decline rfl
      · exact h.congr rfl rfl rfl rfl
  | leave =>
    simp only [Dialogue.act, Dialogue.leave]
    split
    · have hreceive := Run.stirs_receive d.run (some .declined)
      exact h.congr hreceive.plan (Run.posted_receive d.run (some .declined))
        d.run.reply?_decline rfl
    · exact h.congr rfl rfl rfl rfl
  | cancel | meanwhile => exact h.congr rfl rfl rfl rfl

end Dialogue

/-! ## The worker is served -/

namespace Scene

/-- What a worker that waits for the user is promised, and the user. -/
structure Served (s : Scene (π × List Note)) : Prop where
  /-- It holds no connection. -/
  free : s.dialogue.run.stage.isAwaiting = true → ∀ id, ¬ s.mine id
  /-- One request more was posted than waits are over. -/
  outstanding : s.dialogue.run.asked =
    s.returned + if s.dialogue.run.stage.isAwaiting then 1 else 0
  /-- A password is the answer of the user, who was asked for it last; if he gives none, it is the
  empty one. -/
  password : ∀ side gate, s.dialogue.run.stage = .awaitingPassword side gate → ∃ tries,
    gate.Serves (s.dialogue.run.posted.find? (·.isRequest)) s.dialogue.requests
      (.passwordRequest (s.dialogue.run.deviceAt side) tries) ∧
    ∀ text, gate.slot = some text → ∃ answer : Option String, text = answer.getD "" ∧
      s.dialogue.user.2.getLast? =
        some (.password (s.dialogue.run.deviceAt side) tries answer)
  /-- A destination is the answer of the user, who was asked for it last, and is not the source. -/
  destination : ∀ gate, s.dialogue.run.stage = .awaitingDestination gate →
    gate.Serves (s.dialogue.run.posted.find? (·.isRequest)) s.dialogue.requests
      (.destinationRequest s.dialogue.run.plan.source) ∧
    ∀ info, gate.slot = some info → info.pin ≠ s.dialogue.run.plan.source.pin ∧
      ∃ candidates, s.dialogue.user.2.getLast? =
        some (.choice s.dialogue.run.plan.source candidates (some info))
  /-- The user is not shown the source when he is asked for a destination. -/
  shown : ∀ source candidates answer, .choice source candidates answer ∈ s.dialogue.user.2 →
    source = s.dialogue.run.plan.source ∧
      ∀ c ∈ candidates, c.pin ≠ s.dialogue.run.plan.source.pin

theorem getLast?_of_isSuffix {news notes : List Note} {note : Note} (h : news <:+ notes)
    (hlast : news.getLast? = some note) : notes.getLast? = some note := by
  obtain ⟨before, rfl⟩ := h
  rw [List.getLast?_append, hlast]
  rfl

theorem Sound.served {s : Scene (π × List Note)} (h : s.Sound) (recorded : s.dialogue.Recorded) :
    s.Served := by
  refine ⟨?_, h.asked, ?_, ?_, recorded.shown⟩
  · intro hawaiting id hmine
    have hconnection := h.holds id hmine
    rw [Stage.connection?_of_isAwaiting hawaiting] at hconnection
    cases hconnection
  · intro side gate hstage
    have hlinked := h.links.linked
    simp only [Run.Linked, hstage] at hlinked
    obtain ⟨tries, hserves⟩ := hlinked
    refine ⟨tries, hserves, fun text hslot => ?_⟩
    obtain ⟨request, news, hasked, hhandled, hsuffix⟩ := recorded.answered (.password text)
      (by rw [hstage, Stage.reply?, hslot]; rfl)
    obtain rfl := Option.some.inj (hasked.symm.trans hserves.asked)
    obtain ⟨answer, hreply, rfl⟩ := hhandled
    obtain ⟨⟩ := hreply
    exact ⟨answer, rfl, getLast?_of_isSuffix hsuffix rfl⟩
  · intro gate hstage
    have hserves := h.links.linked
    simp only [Run.Linked, hstage] at hserves
    refine ⟨hserves, fun info hslot => ?_⟩
    obtain ⟨request, news, hasked, hhandled, hsuffix⟩ := recorded.answered (.destination info)
      (by rw [hstage, Stage.reply?, hslot]; rfl)
    obtain rfl := Option.some.inj (hasked.symm.trans hserves.asked)
    obtain ⟨chosen, hreply, hchosen⟩ := hhandled
    obtain rfl := Option.some.inj hreply
    obtain ⟨⟨⟩⟩ | ⟨⟨⟩⟩ | ⟨info', candidates, ⟨⟩, hpin, hlast⟩ := hchosen.reply
    exact ⟨hpin, candidates, getLast?_of_isSuffix hsuffix hlast⟩

theorem sound_after (p : Prompter π) {s : Scene (π × List Note)} (h : s.Sound)
    (recorded : s.dialogue.Recorded) (acts : List Act) :
    (s.after p.noted acts).Sound ∧ (s.after p.noted acts).dialogue.Recorded := by
  induction acts generalizing s with
  | nil => exact ⟨h, recorded⟩
  | cons a acts ih => exact ih (h.act p.noted a) (recorded.act h.links a)

/-- **No request is lost**, whatever happens, in whatever order: the user is the same with his notes
and without, every reply is what came of his answers, and a worker that waits for him holds nothing
and waits for one request, which is still to be dealt with or is answered. -/
theorem served_after (p : Prompter π) (plan : Plan) (bus : Device.Bus) (files : Files) (user : π)
    (acts : List Act) :
    ((start plan bus files (user, [])).after p.noted acts).forget
        = (start plan bus files user).after p acts ∧
      (∀ limit event s bus, ∃ news, (p.noted.handle limit event s bus).2.1.2 = s.2 ++ news ∧
        event.Handled (p.noted.handle limit event s bus).1 news) ∧
      ((start plan bus files (user, [])).after p.noted acts).Served := by
  have hstart : (start plan bus files (user, ([] : List Note))).dialogue.Recorded :=
    ⟨Run.answered_of_reply?_eq_none rfl, nofun⟩
  obtain ⟨hsound, hrecorded⟩ := sound_after p (sound_start ..) hstart acts
  exact ⟨forget_after p _ acts, p.handled_noted, hsound.served hrecorded⟩

end Scene

end Palmtop.Migration
