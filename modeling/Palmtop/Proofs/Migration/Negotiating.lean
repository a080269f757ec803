import Mathlib.Logic.Function.Iterate
import Palmtop.Migration.Script
import Palmtop.Proofs.Migration.Answering

/-! # Settling on a destination

Two loops, one within the other, keep the source from being restored into.  The worker asks for a
destination again as long as the source is named; it is content with any other device, and gives up
when no answer comes (`Run.Settled`).  An attendant that puts the question to a user probes the bus
and asks again as well, and lets the question go when the user declines or the probe fails
(`Prompter.Decided`).  Either loop alone would do.
-/
namespace Palmtop.Migration

/-- Whether the event tells of something that went wrong. -/
def Event.isError : Event → Bool
  | .error _ => true
  | _ => false

/-! ## The worker -/

/-- An answer to the question for a destination as a reply. -/
def Reply.ofDestination : Option DeviceInfo → Reply
  | some info => .destination info
  | none => .declined

/-- What is posted before the first question: an error if the plan names the source. -/
def refusal (plan : Plan) : List Event :=
  match plan.destination with
  | some info =>
    if info.pin = plan.source.pin then
      [.error s!"Cannot restore {plan.source.label} into itself, choose another device"]
    else []
  | none => []

/-- What is posted, the oldest first, while these are named that are the source. -/
def asked (source : DeviceInfo) : List DeviceInfo → List Event
  | [] => [.destinationRequest source]
  | info :: named => .destinationRequest source ::
    .error s!"{info.label} is the device being migrated from, choose another" :: asked source named

theorem countP_isRequest_asked (source : DeviceInfo) (named : List DeviceInfo) :
    (asked source named).countP (·.isRequest) = named.length + 1 := by
  induction named with
  | nil => rfl
  | cons info named ih =>
    rw [asked, List.countP_cons, List.countP_cons, ih]
    rfl

theorem countP_isError_asked (source : DeviceInfo) (named : List DeviceInfo) :
    (asked source named).countP (·.isError) = named.length := by
  induction named with
  | nil => rfl
  | cons info named ih =>
    rw [asked, List.countP_cons, List.countP_cons, ih]
    rfl

/-- A plan that names the source, and no other, is refused once. -/
theorem refusal_eq {plan : Plan} (h : ∀ info ∈ plan.destination, info.pin = plan.source.pin) :
    refusal plan = if plan.destination.isSome then
      [.error s!"Cannot restore {plan.source.label} into itself, choose another device"]
    else [] := by
  unfold refusal
  cases hdestination : plan.destination with
  | none => rfl
  | some info => exact if_pos (h info hdestination)

namespace Run
variable {r : Run} {replies : Nat → Option Reply} {m : Nat}

/-- Where the worker stands once the source is named no more: it goes on with another device, has
given up for want of an answer, or still waits for one. -/
inductive Settled (source : DeviceInfo) : List (Option DeviceInfo) → Run → Prop where
  | chosen {r : Run} {info : DeviceInfo} {more : List (Option DeviceInfo)}
      (other : info.pin ≠ source.pin) (stage : r.stage = .checking (.enterRestore info))
      (uncancelled : r.cancelled = false) : Settled source (some info :: more) r
  | abandoned {r : Run} {more : List (Option DeviceInfo)}
      (stage : r.stage = .ending (.error .cancelled)) (cancelled : r.cancelled = true) :
      Settled source (none :: more) r
  | waiting {r : Run} (stage : r.stage = .awaitingDestination {})
      (uncancelled : r.cancelled = false) :
      Settled source [] r

/-- The worker asks, and so has a question open. -/
theorem ask_stage (hlistening : r.listening = true) :
    r.ask = (r.post (.destinationRequest r.plan.source)).goTo (.awaitingDestination {}) := by
  rw [ask, hlistening]

/-- The worker goes on with the answer it was given. -/
theorem step_receive_destination (hcancelled : r.cancelled = false) (answer : Option DeviceInfo) :
    ((r.goTo (.awaitingDestination {})).receive (some (.ofDestination answer))).step
      = ((r.goTo (.awaitingDestination {})).receive
          (some (.ofDestination answer))).takeDestination answer := by
  cases answer <;>
    simp [receive, Reply.ofDestination, answerDestination, decline, goTo, step, hcancelled,
      Handoff.waitOrCancel, Handoff.wait, Handoff.answer, Handoff.drop]

/-- A worker that asks goes on asking until it is answered something other than the source. -/
theorem comes_ask (answers : List (Option DeviceInfo)) (hcancelled : r.cancelled = false)
    (hlistening : r.listening = true)
    (hreplies : ∀ i, replies (m + i) = answers[i]?.map .ofDestination) :
    ∃ named rest w, Interview.Comes replies w ⟨r.goTo (.checking .ask), m⟩ ∧
      answers = named.map some ++ rest ∧ (∀ info ∈ named, info.pin = r.plan.source.pin) ∧
      w.run.posted = (asked r.plan.source named).reverse ++ r.posted ∧
      w.answered = m + named.length + min rest.length 1 ∧ Settled r.plan.source rest w.run := by
  induction answers generalizing r m with
  | nil =>
    refine ⟨[], [], ⟨_, m⟩, .of_checking hcancelled (.of_step .here rfl rfl), rfl, nofun, ?_, rfl,
      ?_⟩
    · exact (congrArg posted (ask_stage hlistening))
    · refine .waiting ?_ hcancelled
      exact congrArg stage (ask_stage hlistening)
  | cons answer answers ih =>
    -- up to the answer it is all the same
    let r₁ := r.post (.destinationRequest r.plan.source)
    let r₂ := (r₁.goTo (.awaitingDestination {})).receive (some (.ofDestination answer))
    have hreply : replies m = some (.ofDestination answer) := hreplies 0
    have htaken : r₂.step = r₂.takeDestination answer :=
      step_receive_destination (r := r₁) hcancelled answer
    have hquiet : r₂.isAsking = false := by cases answer <;> rfl
    have comes {w : Interview} (h : Interview.Comes replies w ⟨r₂.takeDestination answer, m + 1⟩) :
        Interview.Comes replies w ⟨r.goTo (.checking .ask), m⟩ := by
      have hasked : (r.goTo (.working .ask)).step = r₁.goTo (.awaitingDestination {}) :=
        ask_stage hlistening
      refine .of_checking hcancelled (.of_step ?_ hasked rfl)
      refine .of_reply hreply rfl ?_ (h.of_step htaken hquiet)
      simp [step, goTo, r₁, post, hcancelled, Handoff.waitOrCancel, Handoff.wait]
    cases answer with
    | none =>
      refine ⟨[], _, ⟨r₂.abandon, m + 1⟩, comes .here, rfl, nofun, rfl, ?_, .abandoned rfl rfl⟩
      simp
    | some info =>
      by_cases hpin : info.pin = r.plan.source.pin
      · -- the source was named: the rest goes as if it had not been asked before
        let r₃ := r₁.post
          (.error s!"{info.label} is the device being migrated from, choose another")
        have hagain : r₂.takeDestination (some info) = r₃.goTo (.checking .ask) := if_pos hpin
        obtain ⟨named, rest, w, hcomes, hanswers, hsources, hposted, hanswered, hsettled⟩ :=
          ih (r := r₃) (m := m + 1) hcancelled hlistening fun i => by
            rw [Nat.add_assoc, Nat.add_comm 1 i]
            exact hreplies (i + 1)
        refine ⟨info :: named, rest, w, comes (hagain ▸ hcomes), by rw [hanswers]; rfl,
          List.forall_mem_cons.mpr ⟨hpin, hsources⟩, ?_, ?_, hsettled⟩
        · rw [hposted]
          simp [asked, r₃, r₁, post]
        · rw [hanswered, List.length_cons]
          omega
      · have hother : r₂.takeDestination (some info) = r₂.goTo (.checking (.enterRestore info)) :=
          if_neg hpin
        refine ⟨[], _, ⟨r₂.goTo (.checking (.enterRestore info)), m + 1⟩, comes (hother ▸ .here),
          rfl, nofun, rfl, ?_, .chosen hpin rfl hcancelled⟩
        simp

/-- A worker that nobody listens to asks once. -/
theorem comes_ask_unheard (hcancelled : r.cancelled = false) (hlistening : r.listening = false)
    (more : List (Option DeviceInfo)) :
    ∃ w, Interview.Comes replies w ⟨r.goTo (.checking .ask), m⟩ ∧
      w.run.posted = .destinationRequest r.plan.source :: r.posted ∧ w.answered = m ∧
      Settled r.plan.source (none :: more) w.run := by
  let r₁ := r.post (.destinationRequest r.plan.source)
  have hasked : (r.goTo (.working .ask)).step
      = r₁.goTo (.awaitingDestination { answering := r.listening }) := rfl
  rw [hlistening] at hasked
  have hdropped : (r₁.goTo (.awaitingDestination { answering := false })).step = r₁.abandon := by
    simp [step, goTo, r₁, post, hcancelled, Handoff.waitOrCancel, Handoff.wait, takeDestination,
      abandon, fail]
  exact ⟨⟨r₁.abandon, m⟩,
    .of_checking hcancelled (.of_step (.of_step .here hdropped rfl) hasked rfl), rfl, rfl,
    .abandoned rfl rfl⟩

/-- A worker that asks comes to settle on something, as far as it is answered. -/
theorem comes_settled (answers : List (Option DeviceInfo)) (hcancelled : r.cancelled = false)
    (heard : r.listening = true ∨ answers.head? = some none) :
    ∃ named rest w,
      Interview.Comes (fun i => answers[i]?.map .ofDestination) w ⟨r.goTo (.checking .ask), 0⟩ ∧
      answers = named.map some ++ rest ∧ (∀ info ∈ named, info.pin = r.plan.source.pin) ∧
      w.run.posted = (asked r.plan.source named).reverse ++ r.posted ∧
      w.answered = named.length + (if r.listening then min rest.length 1 else 0) ∧
      Settled r.plan.source rest w.run := by
  cases hlistening : r.listening with
  | true =>
    obtain ⟨named, rest, w, hcomes, hanswers, hsources, hposted, hanswered, hsettled⟩ :=
      comes_ask (m := 0) answers hcancelled hlistening fun i => by rw [Nat.zero_add]
    rw [Nat.zero_add] at hanswered
    exact ⟨named, rest, w, hcomes, hanswers, hsources, hposted, hanswered, hsettled⟩
  | false =>
    obtain ⟨more, rfl⟩ : ∃ more, answers = none :: more :=
      List.head?_eq_some_iff.mp (heard.resolve_left (by simp [hlistening]))
    obtain ⟨w, hcomes, hposted, hanswered, hsettled⟩ := comes_ask_unheard hcancelled hlistening more
    exact ⟨[], none :: more, w, hcomes, rfl, List.forall_mem_nil _, hposted, hanswered, hsettled⟩

/-- A destination of the plan that is not the source is taken. -/
theorem comes_resolved (hstage : r.stage = .working .enterResolve) {info : DeviceInfo}
    (hplan : r.plan.destination = some info) (hother : info.pin ≠ r.plan.source.pin) :
    Interview.Comes replies
      ⟨(r.enter .resolveDestination).goTo (.checking (.enterRestore info)), m⟩ ⟨r, m⟩ := by
  refine .of_step .here ?_ (by simp only [isAsking, hstage])
  have hsame : (r.enter .resolveDestination).plan = r.plan := rfl
  rw [step, hstage]
  simp only [perform, resolve, hsame, hplan, if_neg hother]

/-- Otherwise the worker comes to ask, with an error first if the plan names the source. -/
theorem step_resolve (hstage : r.stage = .working .enterResolve)
    (hplan : ∀ info ∈ r.plan.destination, info.pin = r.plan.source.pin) :
    r.step = ({ r.enter .resolveDestination with
      posted := (refusal r.plan).reverse ++ r.posted }).goTo (.checking .ask) := by
  have hsame : (r.enter .resolveDestination).plan = r.plan := rfl
  rw [step, hstage]
  simp only [perform, resolve, hsame, refusal]
  cases hdestination : r.plan.destination with
  | none => rfl
  | some info =>
    simp only [if_pos (hplan info hdestination)]
    rfl

end Run

/-- How settling on a destination goes when the plan names none but the source: these sources were
named, and these answers are left, the next of which was given as well if anybody listened. -/
structure Negotiated (r : Run) (answers : List (Option DeviceInfo)) (w : Interview)
    (named : List DeviceInfo) (rest : List (Option DeviceInfo)) : Prop where
  answers : answers = named.map some ++ rest
  sources : ∀ info ∈ named, info.pin = r.plan.source.pin
  posted : w.run.posted.reverse
    = r.posted.reverse ++ refusal r.plan ++ asked r.plan.source named
  requests : w.run.posted.countP (·.isRequest) = r.posted.countP (·.isRequest) + (1 + named.length)
  errors : w.run.posted.countP (·.isError) = r.posted.countP (·.isError)
    + (named.length + if r.plan.destination.isSome then 1 else 0)
  answered : w.answered = named.length + if r.listening then min rest.length 1 else 0
  settled : Run.Settled r.plan.source rest w.run

namespace Run
variable {r : Run} {m : Nat}

theorem comes_negotiated (hstage : r.stage = .working .enterResolve)
    (hcancelled : r.cancelled = false)
    (hplan : ∀ info ∈ r.plan.destination, info.pin = r.plan.source.pin)
    (answers : List (Option DeviceInfo)) (heard : r.listening = true ∨ answers.head? = some none) :
    ∃ w named rest, Interview.Comes (fun i => answers[i]?.map .ofDestination) w ⟨r, 0⟩ ∧
      Negotiated r answers w named rest := by
  obtain ⟨named, rest, w, hcomes, hanswers, hsources, hposted, hanswered, hsettled⟩ :=
    comes_settled (r := { r.enter .resolveDestination with
      posted := (refusal r.plan).reverse ++ r.posted }) answers hcancelled heard
  have hcounts (count : Event → Bool) : w.run.posted.countP count
      = (asked r.plan.source named).countP count + ((refusal r.plan).countP count
        + r.posted.countP count) := by
    rw [hposted]
    simp only [List.countP_append, List.countP_reverse]
    rfl
  refine ⟨w, named, rest, hcomes.of_step (step_resolve hstage hplan) ?_, hanswers, hsources, ?_, ?_,
    ?_, hanswered, hsettled⟩
  · simp only [isAsking, hstage]
  · rw [hposted]
    simp only [List.reverse_append, List.reverse_reverse, List.append_assoc]
    rfl
  · rw [hcounts, countP_isRequest_asked, refusal_eq hplan]
    split <;> simp [Event.isRequest] <;> omega
  · rw [hcounts, countP_isError_asked, refusal_eq hplan]
    split <;> simp [Event.isError] <;> omega

end Run

/-! ## The attendant -/

namespace Prompter
variable {π : Type} (p : Prompter π) (source : DeviceInfo)

/-- One round of the attendant: the bus is probed, and the user shown what else is plugged in. -/
def round (w : π × Device.Bus) : Except Device.Error (Option DeviceInfo) × π × Device.Bus :=
  match w.2.probe with
  | (.error e, bus) => (.error e, w.1, bus)
  | (.ok devices, bus) =>
    let (choice, s, bus) := p.choose source (devices.filter (·.pin != source.pin)) w.1 bus
    (.ok choice, s, bus)

/-- What comes of a round that names the source: the user is told, and there is another. -/
def again (w : π × Device.Bus) : π × Device.Bus :=
  let (_, s, bus) := p.round source w
  (p.error "The destination must be a different device than the source." s, bus)

/-- What comes of a round: nothing but an error or a device that is not the source ends the
question. -/
def Names (w : π × Device.Bus) : Prop :=
  ∃ choice, (p.round source w).1 = .ok (some choice) ∧ choice.pin = source.pin

/-- The reply to the question, round by round.  It is the first choice that is not the source, and
there is none if the user declines before that or the bus cannot be probed; it is not decided yet if
the source was named in every round there was. -/
inductive Decided (limit : Nat) (w : π × Device.Bus) : Reply → Prop where
  | chosen {k : Nat} {choice : DeviceInfo} (within : k < limit)
      (before : ∀ i < k, p.Names source ((p.again source)^[i] w))
      (round : (p.round source ((p.again source)^[k] w)).1 = .ok (some choice))
      (other : choice.pin ≠ source.pin) : Decided limit w (.destination choice)
  | declined {k : Nat} (within : k < limit)
      (before : ∀ i < k, p.Names source ((p.again source)^[i] w))
      (round : (p.round source ((p.again source)^[k] w)).1 = .ok none) : Decided limit w .declined
  | unprobed {k : Nat} {e : Device.Error} (within : k < limit)
      (before : ∀ i < k, p.Names source ((p.again source)^[i] w))
      (round : (p.round source ((p.again source)^[k] w)).1 = .error e) : Decided limit w .declined
  | undecided (named : ∀ i < limit, p.Names source ((p.again source)^[i] w)) :
      Decided limit w .undecided

variable {p source}

/-- One more round, by which the source was named. -/
theorem Decided.succ {limit : Nat} {w : π × Device.Bus} {reply : Reply} (hnames : p.Names source w)
    (h : p.Decided source limit (p.again source w) reply) :
    p.Decided source (limit + 1) w reply := by
  have before {k : Nat} (hk : ∀ i < k, p.Names source ((p.again source)^[i] (p.again source w))) :
      ∀ i < k + 1, p.Names source ((p.again source)^[i] w) := by
    intro i hi
    cases i with
    | zero => exact hnames
    | succ i => exact hk i (by omega)
  cases h with
  | chosen within hbefore round other =>
    exact .chosen (Nat.succ_lt_succ within) (before hbefore) round other
  | declined within hbefore round =>
    exact .declined (Nat.succ_lt_succ within) (before hbefore) round
  | unprobed within hbefore round =>
    exact .unprobed (Nat.succ_lt_succ within) (before hbefore) round
  | undecided named => exact .undecided (before named)

theorem decided_chooseDestination (p : Prompter π) (source : DeviceInfo) (limit : Nat)
    (w : π × Device.Bus) :
    p.Decided source limit w (p.chooseDestination source limit w.1 w.2).1 := by
  induction limit generalizing w with
  | zero => exact .undecided fun i hi => absurd hi (Nat.not_lt_zero i)
  | succ limit ih =>
    have first : ∀ i < 0, p.Names source ((p.again source)^[i] w) :=
      fun i hi => absurd hi (Nat.not_lt_zero i)
    unfold chooseDestination
    rcases hprobe : w.2.probe with ⟨e | devices, bus⟩
    · refine .unprobed (k := 0) (e := e) (Nat.succ_pos limit) first ?_
      simp only [Function.iterate_zero, id_eq, round, hprobe]
    rcases hchoose : p.choose source (devices.filter (·.pin != source.pin)) w.1 bus with
      ⟨_ | choice, s, bus'⟩
    · simp only [hchoose]
      refine .declined (k := 0) (Nat.succ_pos limit) first ?_
      simp only [Function.iterate_zero, id_eq, round, hprobe, hchoose]
    have hround : p.round source w = (.ok (some choice), s, bus') := by
      simp only [round, hprobe, hchoose]
    simp only [hchoose]
    by_cases hpin : choice.pin = source.pin
    · have hagain : p.again source w
          = (p.error "The destination must be a different device than the source." s, bus') := by
        simp only [again, hround]
      rw [if_pos hpin]
      exact .succ ⟨choice, by rw [hround], hpin⟩ (hagain ▸ ih _)
    · rw [if_neg hpin]
      refine .chosen (k := 0) (Nat.succ_pos limit) first ?_ hpin
      simp only [Function.iterate_zero, id_eq, hround]

end Prompter

/-- **The destination is never the source.**  A worker settles on a destination and is answered, as
far as the answers go, be it with nothing, as it is when nobody listens; nobody cancels.  If the
plan names a device other than the source, that is it, and nothing is posted.  Otherwise it is the
first device answered that is not the source, unless no answer comes before; then the migration is
given up.  There is one question more than the source was answered, and one error for each time it
was, or was in the plan.

An attendant replies with the first device the user chooses that is not the source, and lets the
question go when the user declines or the bus cannot be probed. -/
theorem destination_settled {r : Run} (start : r.stage = .working .enterResolve)
    (uncancelled : r.cancelled = false) (answers : List (Option DeviceInfo))
    (heard : r.listening = true ∨ answers.head? = some none) {schedule : Nat → Party}
    (fair : Alternating schedule) {π : Type} (p : Prompter π) (limit : Nat) (s : π)
    (bus : Device.Bus) :
    let after := Interview.after (fun i => answers[i]?.map .ofDestination) schedule ⟨r, 0⟩
    let source := r.plan.source
    (∀ info ∈ r.plan.destination, info.pin ≠ source.pin →
      ∃ n, after n = ⟨(r.enter .resolveDestination).goTo (.checking (.enterRestore info)), 0⟩) ∧
    ((∀ info ∈ r.plan.destination, info.pin = source.pin) →
      ∃ n named rest, Negotiated r answers (after n) named rest) ∧
    ∃ reply after, p.handle limit (.destinationRequest source) s bus = (some reply, after) ∧
      p.Decided source limit (s, bus) reply := by
  intro after source
  refine ⟨fun info hplan hother => ?_, fun hplan => ?_,
    _, _, rfl, p.decided_chooseDestination source limit (s, bus)⟩
  · exact (Run.comes_resolved start hplan hother).reached fair
  · obtain ⟨w, named, rest, hcomes, hnegotiated⟩ :=
      Run.comes_negotiated start uncancelled hplan answers heard
    obtain ⟨n, hn⟩ := hcomes.reached fair
    have hn : after n = w := hn
    exact ⟨n, named, rest, hn ▸ hnegotiated⟩

/-- The plan names the source, and so does the first answer; the user names it once, and is shown
the other device alone. -/
theorem destination_settled_named :
    let old : DeviceInfo := ⟨1, "Old"⟩
    let new : DeviceInfo := ⟨2, "New"⟩
    let plan : Plan := { source := old, destination := some old, archivePath := ⟨"backup.tar"⟩ }
    let bus := (({} : Device.Bus).plugIn old {}).plugIn new {}
    let r : Run := { plan, bus, files := {}, stage := .working .enterResolve }
    let answers := [some old, some new, none]
    let user : Script := { choices := [some { destination := old }, some { destination := new }] }
    let after := Interview.after (fun i => answers[i]?.map .ofDestination) inTurn ⟨r, 0⟩
    (∃ n, (after n).run.stage = .checking (.enterRestore new) ∧
      (after n).run.posted.countP (·.isRequest) = 2 ∧
      (after n).run.posted.countP (·.isError) = 2) ∧
    ∃ reply after, Script.prompter.handle 2 (.destinationRequest old) user bus
        = (some reply, after) ∧
      Script.prompter.Decided old 2 (user, bus) reply := by
  intro old new plan bus r answers user after
  obtain ⟨-, hnegotiated, hdecided⟩ := destination_settled (r := r) rfl rfl answers
    (Or.inl rfl) alternating_inTurn Script.prompter 2 user bus
  refine ⟨?_, hdecided⟩
  obtain ⟨n, named, rest, h⟩ := hnegotiated fun info hinfo => by
    rw [← Option.some.inj hinfo]
  have hanswers : [some old, some new, none] = named.map some ++ rest := h.answers
  have hnamed : named = [old] ∧ rest = [some new, none] := by
    match named, hanswers, h.sources, h.settled with
    | [], hrest, _, hsettled =>
      -- the source itself is not settled on
      obtain rfl : [some old, some new, none] = rest := hrest
      cases hsettled with
      | chosen other => exact absurd rfl other
    | [x], hrest, _, _ =>
      obtain ⟨hx, hrest⟩ := List.cons.inj hrest
      exact ⟨by rw [Option.some.inj hx], hrest.symm⟩
    | x :: y :: named, hrest, hsources, _ =>
      obtain ⟨-, hrest⟩ := List.cons.inj hrest
      obtain ⟨hy, -⟩ := List.cons.inj hrest
      have hpin := hsources y (List.mem_cons_of_mem _ List.mem_cons_self)
      rw [← Option.some.inj hy] at hpin
      exact absurd hpin (by decide)
  obtain ⟨rfl, rfl⟩ := hnamed
  refine ⟨n, ?_, h.requests, h.errors⟩
  cases h.settled with
  | chosen _ stage => exact stage

end Palmtop.Migration
