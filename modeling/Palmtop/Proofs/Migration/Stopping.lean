import Palmtop.Proofs.Device.Asking
import Palmtop.Proofs.Migration.Accounts
import Palmtop.Proofs.Migration.Posting

/-! # After a cancellation

A cancelled migration winds down (`Run.WindsDown`).  Every way out of a place where the worker can be
when it is cancelled leads it to a look at the cancellation, with a single record moved before it at
most and nothing begun that was not cleared already.  From that look on it is condemned to end as
cancelled (`Run.Condemned`).

How many records the devices are asked for does not depend on any of this: along every run there is
at most one that was asked for and is not in the archive (`Run.told_asks`).
-/
namespace Palmtop.Migration

/-! ## What the worker does where it is -/

namespace Stage

/-- Whether the worker moves a record there, or tries to. -/
def pumps : Stage → Bool
  | .working (.backUp b) => !b.reader.ended
  | .working (.restore x) => !x.cursor.atEnd
  | _ => false

/-- Whether the worker looks there whether it was cancelled. -/
def looks : Stage → Bool
  | .checking _ | .awaitingPassword _ _ | .awaitingDestination _ => true
  | _ => false

/-- The phase that the worker enters there, having looked before. -/
def enters : Stage → Option Phase
  | .working .enterBackup => some .backup
  | .working .enterResolve => some .resolveDestination
  | .working (.enterRestore _) => some .restore
  | _ => none

/-- The side whose device the worker connects to there. -/
def connectsTo : Stage → Option Side
  | .working (.connect side _) => some side
  | _ => none

/-- Whether the worker may have to wait for a device there, or is through. -/
def isResting : Stage → Bool
  | .taking _ _ | .finished => true
  | _ => false

/-- Whether the worker has looked and begins something there. -/
def begins : Stage → Bool
  | .working task => !task.isUnderWay
  | _ => false

/-- How many records the worker may still move from there on, when it is cancelled. -/
def pumpsLeft : Stage → Nat
  | .working (.connect _ _) | .taking _ _ | .working (.backUp _) | .working (.restore _) => 1
  | _ => 0

/-- How many turns the worker may still make from there on, when it is cancelled, but for those at
which it rests. -/
def turnsLeft : Stage → Nat
  | .finished => 0
  | .ending _ => 1
  | .closing _ (.error _) => 2
  | .closing _ (.ok ()) => 3
  | .checking (.backUp _) => 3
  | .checking _ => 2
  | .awaitingPassword _ _ | .awaitingDestination _ => 3
  | .taking _ _ => 4
  | .working (.connect _ _) => 5
  | .working _ => 4

variable {s s' : Stage}

theorem enters_of_begins (h : s.begins = false) : s.enters = none := by
  cases s with
  | working task =>
    cases task with
    | backUp | restore => rfl
    | _ => cases h
  | _ => rfl

theorem requests_of_begins (h : s.begins = false) : s.requests = 0 := by
  cases s with
  | working task =>
    cases task with
    | backUp | restore => rfl
    | _ => cases h
  | _ => rfl

theorem pumpsLeft_le (s : Stage) : s.pumpsLeft ≤ 1 := by
  unfold pumpsLeft
  split <;> decide

theorem turnsLeft_le (s : Stage) : s.turnsLeft ≤ 5 := by
  unfold turnsLeft
  split <;> decide

theorem begins_of_isIdle (h : s.isIdle = true) : s.begins = false := by
  cases s with
  | working task => cases h
  | _ => rfl

end Stage

namespace Run

/-- Where the worker is when it is its turn. -/
def workedAt (r : Run) : Turn → List Stage
  | .work _ => [r.stage]
  | _ => []

/-- Where the worker is at each of its turns, one after the other. -/
def worked (r : Run) : List Turn → List Stage
  | [] => []
  | t :: turns => r.workedAt t ++ (r.turn t).worked turns

variable {r r' r'' : Run} {sessions : Device.Bus.Sessions} {n m : Nat}

theorem worked_append (r : Run) (turns later : List Turn) :
    r.worked (turns ++ later) = r.worked turns ++ (r.after turns).worked later := by
  induction turns generalizing r with
  | nil => rfl
  | cons t turns ih =>
    rw [List.cons_append, worked, worked, ih, List.append_assoc, after_cons]

theorem workedAt_of_ne_work {t : Turn} (ht : ∀ refusals, t ≠ .work refusals) :
    r.workedAt t = [] := by
  cases t with
  | work refusals => exact absurd rfl (ht refusals)
  | incident | reply | leave => rfl

/-! ## Winding down -/

/-- The run is bound to end as cancelled. -/
def Condemned (r : Run) : Prop :=
  match r.stage with
  | .checking _ | .awaitingPassword _ _ | .awaitingDestination _ => True
  | .closing _ result | .ending result => result = .error .cancelled
  | .finished => r.report.outcome = .cancelled
  | .working _ | .taking _ _ => False

/-- What a cancelled run goes through from one state to another, with the worker at these places when
it is its turn. -/
structure WindsDown (places : List Stage) (r r' : Run) : Prop where
  cancelled : r'.cancelled = true
  pumps : r'.stage.pumpsLeft + places.countP Stage.pumps ≤ r.stage.pumpsLeft
  turns : r'.stage.turnsLeft + places.countP (!·.isResting) ≤ r.stage.turnsLeft
  phases : ∃ entered, r'.phases = entered ++ r.phases ∧
    (r'.stage.enters.toList ++ entered.filter (!·.isTerminal)).Sublist r.stage.enters.toList
  requests : ∃ news, r'.posted = news ++ r.posted ∧
    r'.stage.requests + news.countP Event.isRequest ≤ r.stage.requests
  condemned : (r.Condemned ∨ ∃ stage ∈ places, stage.looks = true) → r'.Condemned

/-- A worker whose turn it never was has not looked. -/
theorem not_looks_nil : ¬ ∃ stage ∈ ([] : List Stage), stage.looks = true := by
  rintro ⟨stage, hstage, -⟩
  cases hstage

theorem windsDown_self (hc : r.cancelled = true) : r.WindsDown [] r where
  cancelled := hc
  pumps := Nat.le_refl _
  turns := Nat.le_refl _
  phases := ⟨[], rfl, by rw [List.filter_nil, List.append_nil]⟩
  requests := ⟨[], rfl, Nat.le_refl _⟩
  condemned h := h.resolve_right not_looks_nil

theorem WindsDown.trans {places more : List Stage} (h : r.WindsDown places r')
    (h' : r'.WindsDown more r'') : r.WindsDown (places ++ more) r'' where
  cancelled := h'.cancelled
  pumps := by
    have := h.pumps
    have := h'.pumps
    rw [List.countP_append]
    omega
  turns := by
    have := h.turns
    have := h'.turns
    rw [List.countP_append]
    omega
  phases := by
    obtain ⟨entered, hentered, hfilter⟩ := h.phases
    obtain ⟨more, hmore, hfilter'⟩ := h'.phases
    refine ⟨more ++ entered, by rw [hmore, hentered, List.append_assoc], ?_⟩
    rw [List.filter_append, ← List.append_assoc]
    exact (hfilter'.append_right _).trans hfilter
  requests := by
    obtain ⟨news, hnews, hcount⟩ := h.requests
    obtain ⟨more, hmore, hcount'⟩ := h'.requests
    refine ⟨more ++ news, by rw [hmore, hnews, List.append_assoc], ?_⟩
    rw [List.countP_append]
    omega
  condemned := by
    rintro (hr | ⟨stage, hstage, hlooks⟩)
    · exact h'.condemned (Or.inl (h.condemned (Or.inl hr)))
    · rcases List.mem_append.mp hstage with hstage | hstage
      · exact h'.condemned (Or.inl (h.condemned (Or.inr ⟨stage, hstage, hlooks⟩)))
      · exact h'.condemned (Or.inr ⟨stage, hstage, hlooks⟩)

/-! ### A step of the worker -/

theorem Moves.cancelled (h : r.Moves sessions r') (hc : r.cancelled = true) :
    r'.cancelled = true := by
  cases h with
  | abandons => rfl
  | _ => exact hc

/-- A worker that finds itself cancelled begins nothing. -/
theorem Moves.begins_nothing (h : r.Moves sessions r') (hc : r.cancelled = true) :
    r'.stage.begins = false := by
  cases h with
  | rests stage => exact Stage.begins_of_isIdle stage
  | proceeds _ going => rw [hc] at going; cases going
  | _ => rfl

theorem Moves.pumpsLeft (h : r.Moves sessions r') (hc : r.cancelled = true) :
    r'.stage.pumpsLeft + [r.stage].countP Stage.pumps ≤ r.stage.pumpsLeft := by
  have hpumps : [r.stage].countP Stage.pumps ≤ 1 := List.countP_le_length
  cases h with
  | rests stage =>
    generalize r.stage = s at stage
    cases s with
    | checking | working | closing | ending => cases stage
    | awaitingPassword | awaitingDestination | taking | finished => exact Nat.le_refl _
  | proceeds _ going => rw [hc] at going; cases going
  | abandons stage =>
    generalize r.stage = s at stage
    cases s with
    | awaitingPassword | awaitingDestination => exact Nat.le_refl _
    | _ => cases stage
  | reachesEnd stage | passes stage | archives stage | archivesNot stage | restoresAll stage
  | skips stage | puts stage | givesUp stage | putsNot stage | readsNot stage =>
    rw [stage] at hpumps ⊢
    exact (Nat.zero_add _).le.trans hpumps
  | connects stage | opensBackup stage | opensRestore stage =>
    rw [stage]
    exact Nat.le_refl 1
  | drops stage | dropsBackup stage | dropsRestore stage | entersBackup stage | entersResolve stage
  | settles stage | entersRestore stage | locked stage | connectsNot stage | unlocks stage
  | asks stage | rejects stage | chooses stage | opensNoBackup stage | closes stage
  | breaksOff stage | opensNoRestore stage | concludes stage =>
    rw [stage]
    exact Nat.zero_le _

/-- A wait that is cancelled comes to an end. -/
theorem looks_step_of_isAwaiting (h : r.stage.isAwaiting = true) (hc : r.cancelled = true) :
    (r.step sessions).stage.turnsLeft + 1 ≤ r.stage.turnsLeft := by
  unfold step
  generalize hstage : r.stage = s at h
  cases s with
  | awaitingPassword side gate =>
    simp only [Handoff.waitOrCancel, hc, if_true]
    unfold takePassword
    split
    · split
      · exact Nat.le_succ 2
      · exact Nat.le_refl 3
    · exact Nat.le_succ 2
  | awaitingDestination gate =>
    simp only [Handoff.waitOrCancel, hc, if_true]
    unfold takeDestination
    split
    · exact Nat.le_succ 2
    split
    · exact Nat.le_refl 3
    · exact Nat.le_refl 3
  | _ => cases h

theorem Moves.turnsLeft (h : r.Moves sessions r') (hc : r.cancelled = true)
    (hr : r.stage.isAwaiting = false) :
    r'.stage.turnsLeft + [r.stage].countP (!·.isResting) ≤ r.stage.turnsLeft := by
  have hturn : [r.stage].countP (!·.isResting) ≤ 1 := List.countP_le_length
  cases h with
  | rests stage =>
    generalize r.stage = s at stage hr
    cases s with
    | taking | finished => exact Nat.le_refl _
    | awaitingPassword | awaitingDestination => cases hr
    | checking | working | closing | ending => cases stage
  | proceeds _ going => rw [hc] at going; cases going
  | abandons stage => rw [hr] at stage; cases stage
  | opensBackup stage | opensRestore stage =>
    rw [stage]
    exact Nat.le_refl 4
  | opensNoBackup stage | opensNoRestore stage =>
    rw [stage]
    exact Nat.le_add_left 1 3
  | @drops task stage _ idle =>
    rw [stage]
    cases task with
    | backUp | restore => cases idle
    | _ => exact Nat.le_refl 2
  | _ stage =>
    rw [stage] at hturn ⊢
    exact Nat.le_trans (Nat.add_le_add_left hturn _) (by simp [Stage.turnsLeft])

/-- What is entered was cleared before, but for the last phase. -/
theorem Moves.entered (h : r.Moves sessions r') :
    ∃ entered, r'.phases = entered ++ r.phases ∧
      entered.filter (!·.isTerminal) = r.stage.enters.toList := by
  cases h with
  | rests stage => exact ⟨[], rfl, by rw [Stage.enters_of_begins (Stage.begins_of_isIdle stage)]; rfl⟩
  | abandons stage =>
    generalize r.stage = s at stage
    cases s with
    | awaitingPassword | awaitingDestination => exact ⟨[], rfl, rfl⟩
    | _ => cases stage
  | entersBackup stage | entersResolve stage | settles stage | entersRestore stage =>
    rw [stage]
    exact ⟨[_], rfl, rfl⟩
  | @concludes result _ stage =>
    rw [stage]
    refine ⟨[_], rfl, ?_⟩
    rcases conclusion_cases result with ⟨-, hresult⟩ | ⟨-, hresult⟩ | ⟨reason, hresult⟩
    · rw [hresult]
      rfl
    · rw [hresult]
      rfl
    · rw [hresult]
      rfl
  | _ stage => rw [stage]; exact ⟨[], rfl, rfl⟩

theorem Moves.condemned (h : r.Moves sessions r') (hc : r.cancelled = true) (hr : r.Condemned) :
    r'.Condemned := by
  unfold Condemned at hr
  cases h with
  | rests => exact hr
  | proceeds _ going => rw [hc] at going; cases going
  | drops | dropsBackup | dropsRestore | abandons => rfl
  | unlocks | rejects | chooses => trivial
  | closes stage =>
    rw [stage] at hr
    cases hr
  | breaksOff stage =>
    rw [stage] at hr
    exact hr
  | concludes stage =>
    rw [stage] at hr
    cases hr
    rfl
  | _ stage =>
    rw [stage] at hr
    exact hr.elim

/-- A worker that has looked is condemned. -/
theorem condemned_of_looks (h : r.stage.looks = true) : r.Condemned := by
  unfold Condemned
  generalize r.stage = s at h
  cases s with
  | checking | awaitingPassword | awaitingDestination => trivial
  | working | taking | closing | ending | finished => cases h

theorem windsDown_step (hc : r.cancelled = true) : r.WindsDown [r.stage] (r.step sessions) := by
  have hmoves := r.moves_step sessions
  have hnothing := hmoves.begins_nothing hc
  refine ⟨hmoves.cancelled hc, hmoves.pumpsLeft hc, ?_, ?_, ?_, ?_⟩
  · by_cases hr : r.stage.isAwaiting = true
    · have hturn : [r.stage].countP (!·.isResting) ≤ 1 := List.countP_le_length
      exact (Nat.add_le_add_left hturn _).trans (looks_step_of_isAwaiting hr hc)
    · exact hmoves.turnsLeft hc (eq_false_of_ne_true hr)
  · obtain ⟨entered, hentered, hfilter⟩ := hmoves.entered
    refine ⟨entered, hentered, ?_⟩
    rw [Stage.enters_of_begins hnothing, Option.toList_none, List.nil_append, hfilter]
  · obtain ⟨news, hnews, hcount⟩ := r.posts_step sessions
    refine ⟨news, hnews, ?_⟩
    rwa [Stage.requests_of_begins hnothing, Nat.zero_add]
  · rintro (hr | ⟨stage, hstage, hlooks⟩)
    · exact hmoves.condemned hc hr
    · rw [List.mem_singleton.mp hstage] at hlooks
      exact hmoves.condemned hc (condemned_of_looks hlooks)

/-! ### The whole way -/

/-- Others change nothing of it. -/
theorem Stirs.windsDown (h : r.Stirs r') (hposted : r'.posted = r.posted)
    (hc : r.cancelled = true) : r.WindsDown [] r' := by
  obtain ⟨-, hstage, hphases, hreport, hcancelled, -⟩ := h
  have hcondemned : r.Condemned → r'.Condemned := by
    unfold Condemned
    rw [hreport]
    intro hr
    generalize r.stage = s, r'.stage = s' at hr hstage
    cases hstage with
    | self => exact hr
    | password | destination => trivial
  have hleft : r'.stage.pumpsLeft = r.stage.pumpsLeft ∧ r'.stage.turnsLeft = r.stage.turnsLeft ∧
      r'.stage.enters = r.stage.enters ∧ r'.stage.requests = r.stage.requests := by
    generalize r.stage = s, r'.stage = s' at hstage
    cases hstage with
    | self | password | destination => exact ⟨rfl, rfl, rfl, rfl⟩
  obtain ⟨hpumps, hturns, henters, hrequests⟩ := hleft
  exact
    { cancelled := hcancelled hc
      pumps := hpumps.le
      turns := hturns.le
      phases := ⟨[], hphases, by
        rw [henters, List.filter_nil, List.append_nil]⟩
      requests := ⟨[], hposted, hrequests.le⟩
      condemned := fun hr => hcondemned (hr.resolve_right not_looks_nil) }

theorem windsDown_turn (hc : r.cancelled = true) (t : Turn) :
    r.WindsDown (r.workedAt t) (r.turn t) := by
  rcases r.turn_cases t with ⟨refusals, rfl, -⟩ | ⟨ht, hstirs⟩
  · exact windsDown_step hc
  · rw [workedAt_of_ne_work ht]
    exact hstirs.windsDown (posted_turn ht) hc

/-- A cancelled run winds down, whatever turns it goes on by. -/
theorem windsDown_after (hc : r.cancelled = true) (turns : List Turn) :
    r.WindsDown (r.worked turns) (r.after turns) := by
  induction turns generalizing r with
  | nil => exact windsDown_self hc
  | cons t turns ih =>
    have hturn := windsDown_turn hc t
    exact hturn.trans (ih hturn.cancelled)

/-! ## Records asked for -/

open Device (Asking Exchange)
open Device.Bus (sessionsWith notes_sessionsWith asking_self asks_of_asking asks_of_unheard)

/-- How many records may have been asked for by now and not have gone into the archive. -/
def missing (r : Run) : Nat :=
  match r.stage.progress with
  | .before | .backingUp _ => 0
  | .failing _ | .between | .restoring _ | .ended => 1

theorem missing_le (r : Run) : r.missing ≤ 1 := by
  unfold missing
  split
  · exact Nat.zero_le 1
  · exact Nat.zero_le 1
  all_goals exact Nat.le_refl 1

variable {refusals : Device.Bus.Refusals} {bus bus' : Device.Bus} {id : Device.ConnectionId}

theorem asks_connect {info : DeviceInfo} {password : Option String}
    {answer : Except Device.Error Device.ConnectionId}
    (h : bus.connect info password = (answer, bus')) : bus.Asks 0 bus' := by
  have hconnect := Device.Bus.hears_connect bus info password
  rw [h] at hconnect
  exact asks_of_unheard hconnect

theorem asks_catalog {bus'' : Device.Bus} {answer : Except Device.Error (List CatalogEntry)}
    (taken : bus.acquire? id = some bus')
    (catalog : (sessionsWith refusals id).catalog bus' = (answer, bus'')) : bus.Asks 0 bus'' := by
  have hcatalog := (notes_sessionsWith refusals id).ask (asking_self id bus') catalog
  exact (asks_of_unheard (Device.Bus.hears_acquire taken)).trans (asks_of_asking hcatalog)

theorem asks_next {reader reader' : Device.Reader} {answer : Except Device.Error (Option Record)}
    (h : reader.next (sessionsWith refusals id) bus = (answer, reader', bus')) :
    bus.Asks (Device.Reader.asked answer) bus' := by
  have hnext := Device.Reader.next_asks (notes_sessionsWith refusals id) reader (asking_self id bus)
  rw [h, Nat.zero_add] at hnext
  exact asks_of_asking hnext

theorem asks_put {writer writer' : Device.Writer} {record : Record}
    {answer : Except Device.Error Unit}
    (h : writer.put (sessionsWith refusals id) record bus = (answer, writer', bus')) :
    bus.Asks 0 bus' := by
  have hput := Device.Writer.put_asks (notes_sessionsWith refusals id) writer record
    (asking_self id bus)
  rw [h] at hput
  exact asks_of_asking hput

theorem asks_release (bus : Device.Bus) (id : Device.ConnectionId) : bus.Asks 0 (bus.release id) :=
  asks_of_unheard (Device.Bus.hears_release bus id)

/-- No record that is missing is found again. -/
theorem Progresses.missing_le (h : r.Progresses sessions r') : r.missing ≤ r'.missing := by
  have hle := r.missing_le
  unfold missing at hle ⊢
  cases h with
  | stays progress => rw [progress]
  | opensBackup before | passes before | archives before | fails before =>
    rw [before]
    exact Nat.zero_le _
  | stops _ progress | closes _ progress | breaksOff _ progress | opensRestore _ progress
  | moves _ progress | givesUp _ progress =>
    rw [progress]
    exact hle

/-- Whatever a step asks for goes into the archive, or the backup is given up for it. -/
theorem Moves.asked (h : r.Moves (sessionsWith refusals) r') :
    ∃ n, r.bus.Asks n r'.bus ∧
      n + r.missing ≤ (r.archives? (sessionsWith refusals)).toList.length + r'.missing := by
  have hnone (hasks : r.bus.Asks 0 r'.bus) : ∃ n, r.bus.Asks n r'.bus ∧
      n + r.missing ≤ (r.archives? (sessionsWith refusals)).toList.length + r'.missing := by
    refine ⟨0, hasks, ?_⟩
    rw [Nat.zero_add]
    exact h.progresses.missing_le.trans (Nat.le_add_left _ _)
  have hself : r.bus.Asks 0 r.bus := asks_of_unheard (Device.Bus.hears_self r.bus)
  cases h with
  | rests | proceeds | drops | dropsBackup | entersBackup | entersResolve | settles | entersRestore
  | unlocks | asks | rejects | chooses | abandons | reachesEnd | skips | concludes =>
    exact hnone hself
  | dropsRestore | closes | breaksOff | restoresAll | readsNot => exact hnone (asks_release _ _)
  | connects _ connect | locked _ connect | connectsNot _ connect =>
    exact hnone (asks_connect connect)
  | opensBackup _ taken catalog | opensRestore _ taken catalog =>
    exact hnone (asks_catalog taken catalog)
  | opensNoBackup _ taken catalog | opensNoRestore _ taken catalog =>
    exact hnone ((asks_catalog taken catalog).trans (asks_release _ _))
  | puts _ _ put | givesUp _ _ put => exact hnone (asks_put put)
  | putsNot _ _ put => exact hnone ((asks_put put).trans (asks_release _ _))
  | passes stage ended read => exact hnone (asks_next read)
  | archives stage ended read put =>
    refine ⟨1, asks_next read, ?_⟩
    rw [archives?_of_read stage ended read, missing, missing, stage]
    simp only [put]
    exact Nat.le_refl 1
  | @archivesNot b answer _ _ _ _ stage ended read =>
    refine ⟨_, asks_next read, ?_⟩
    have hasked : Device.Reader.asked answer ≤ 1 := by
      unfold Device.Reader.asked
      split <;> decide
    rw [missing, missing, stage]
    exact hasked.trans (Nat.le_add_left 1 _)

/-- **How many records are asked for.**  In the course of any turns, no device is asked for more
records than go into the archive, but for one that may be missing. -/
theorem told_asks (r : Run) (n : Nat) (turns : List Turn) :
    (r.told n turns).countP Exchange.asks + r.missing ≤
      (r.archived turns).length + (r.after turns).missing := by
  induction turns generalizing r with
  | nil => exact Nat.le_refl _
  | cons t turns ih =>
    have hrest := ih (r.turn t)
    have hturn : (toldBetween r.bus (r.turn t).bus n).countP Exchange.asks + r.missing ≤
        (r.archivesAt? t).toList.length + (r.turn t).missing := by
      have hcount {m : Nat} (h : r.bus.Asks m (r.turn t).bus) :
          (toldBetween r.bus (r.turn t).bus n).countP Exchange.asks ≤ m := by
        obtain ⟨news, hhears, hcount⟩ := h
        cases hd : r.bus.devices[n]? with
        | none =>
          rw [toldBetween_of_absent hd]
          exact Nat.zero_le m
        | some d =>
          rw [toldBetween_of_hears hhears hd]
          exact hcount n
      rcases r.turn_cases t with ⟨refusals, rfl, hmoves⟩ | ⟨ht, hstirs⟩
      · obtain ⟨m, hasks, hle⟩ := hmoves.asked
        exact (Nat.add_le_add_right (hcount hasks) _).trans hle
      · have hmissing : (r.turn t).missing = r.missing := by
          rw [missing, hstirs.progress, missing]
        rw [archivesAt?_of_ne_work ht, hmissing]
        exact Nat.add_le_add_right (hcount (asks_of_unheard hstirs.bus)) _
    rw [told, archived, List.countP_append, List.length_append, after_cons]
    omega

/-! ## The device restored into -/

theorem OnCourse.phases (h : r.OnCourse) :
    r.phase.isTerminal = true ∨ ∃ phases, r.Entered phases ∧ phases <+: Phase.course := by
  unfold OnCourse at h
  generalize r.stage = s at h
  cases s with
  | checking task | working task => exact Or.inr ⟨_, h, task.entered_prefix⟩
  | awaitingPassword side | taking side => exact Or.inr ⟨_, h, side.entered_prefix⟩
  | awaitingDestination => exact Or.inr ⟨_, h, [.restore], rfl⟩
  | closing => exact Or.inr ⟨_, h.1, Side.entered_prefix .source⟩
  | ending =>
    obtain ⟨phases, hleaves⟩ := h
    exact Or.inr ⟨phases, hleaves.entered, hleaves.ordered⟩
  | finished =>
    obtain ⟨phases, last, hended⟩ := h
    refine Or.inl ?_
    have hphases : r.phases = last :: (.idle :: phases).reverse := by
      rw [← List.reverse_reverse r.phases, hended.entered, ← List.cons_append, List.reverse_append]
      rfl
    rw [phase, hphases]
    exact hended.terminal

/-- In the backup, no other phase was entered. -/
theorem OnCourse.phases_of_backup (h : r.OnCourse) (hp : r.phase = .backup) :
    r.phases = [.backup, .idle] := by
  rcases h.phases with hterminal | ⟨phases, hentered, hprefix⟩
  · rw [hp] at hterminal
    cases hterminal
  have hphases : r.phases = (.idle :: phases).reverse := by
    rw [← hentered, List.reverse_reverse]
  rw [phase, hphases] at hp
  simp only [Phase.course, List.prefix_cons_iff, List.prefix_nil] at hprefix
  rcases hprefix with rfl | ⟨_, rfl, rfl | ⟨_, rfl, rfl | ⟨_, rfl, rfl⟩⟩⟩
  · cases hp
  · exact hphases
  · cases hp
  · cases hp

/-- The worker connects to no destination before the restore. -/
theorem OnCourse.restore_of_connectsTo {info : DeviceInfo} (h : r.OnCourse)
    (hstage : r.stage.connectsTo = some (.destination info)) : .restore ∈ r.phases := by
  unfold OnCourse at h
  generalize r.stage = s at h hstage
  cases s with
  | working task =>
    cases task with
    | connect side =>
      obtain rfl : side = .destination info := Option.some.inj hstage
      rw [← List.mem_reverse, h]
      exact List.mem_cons_of_mem _ (show Phase.restore ∈ Phase.course by decide)
    | _ => cases hstage
  | _ => cases hstage

theorem phases_turn (r : Run) (t : Turn) : ∃ entered, (r.turn t).phases = entered ++ r.phases := by
  rcases r.turn_cases t with ⟨refusals, -, hmoves⟩ | ⟨-, hstirs⟩
  · obtain ⟨entered, hentered, -⟩ := hmoves.entered
    exact ⟨entered, hentered⟩
  · exact ⟨[], hstirs.phases⟩

theorem mem_phases_after {phase : Phase} (h : phase ∈ r.phases) (turns : List Turn) :
    phase ∈ (r.after turns).phases := by
  refine after_of_turn (P := fun r => phase ∈ r.phases) (fun r t h => ?_) h turns
  obtain ⟨entered, hentered⟩ := r.phases_turn t
  rw [hentered]
  exact List.mem_append_right _ h

/-- Wherever in the course of these turns the worker connects to a destination, the restore was
entered. -/
theorem OnCourse.restore_of_worked {stage : Stage} {info : DeviceInfo} {turns : List Turn}
    (h : r.OnCourse) (hworked : stage ∈ r.worked turns)
    (hstage : stage.connectsTo = some (.destination info)) :
    .restore ∈ (r.after turns).phases := by
  induction turns generalizing r with
  | nil => cases hworked
  | cons t turns ih =>
    rcases List.mem_append.mp hworked with hworked | hworked
    · have hr : stage = r.stage := by
        cases t with
        | work refusals => exact List.mem_singleton.mp hworked
        | incident | reply | leave => cases hworked
      exact mem_phases_after (h.restore_of_connectsTo (hr ▸ hstage)) (t :: turns)
    · exact ih (h.turn t) hworked

/-! ## What a cancellation comes to -/

/-- A run that is cancelled heeds it in the course of these turns. -/
structure Heeds (r : Run) (turns : List Turn) : Prop where
  /-- One record is moved at most. -/
  pumps : (r.worked turns).countP Stage.pumps ≤ 1
  /-- No phase is entered but the one that the worker was about to enter, and the last. -/
  phases : ∃ entered, (r.after turns).phases = entered ++ r.phases ∧
    (entered.filter (!·.isTerminal)).Sublist r.stage.enters.toList
  requests : ∃ news, (r.after turns).posted = news ++ r.posted ∧
    news.countP Event.isRequest ≤ 1
  /-- The worker is through soon, but for the time it waits for a device that somebody holds. -/
  steps : (r.worked turns).countP (!·.isResting) ≤ 5
  /-- Once the worker has looked, the run ends as cancelled. -/
  outcome : (∃ stage ∈ r.worked turns, stage.looks = true) → (r.after turns).stage = .finished →
    (r.after turns).report.outcome = .cancelled

theorem heeds_of_cancelled (hc : r.cancelled = true) (turns : List Turn) : r.Heeds turns := by
  have h := windsDown_after hc turns
  refine ⟨?_, ?_, ?_, ?_, fun hlooks hfinished => ?_⟩
  · exact (Nat.le_add_left _ _).trans (h.pumps.trans r.stage.pumpsLeft_le)
  · obtain ⟨entered, hentered, hfilter⟩ := h.phases
    exact ⟨entered, hentered, (List.sublist_append_right _ _).trans hfilter⟩
  · obtain ⟨news, hnews, hcount⟩ := h.requests
    exact ⟨news, hnews, (Nat.le_add_left _ _).trans (hcount.trans r.stage.requests_le)⟩
  · exact (Nat.le_add_left _ _).trans (h.turns.trans r.stage.turnsLeft_le)
  · have hcondemned := h.condemned (Or.inr hlooks)
    rwa [Condemned, hfinished] at hcondemned

/-- A run that is cancelled in the backup enters no restore. -/
theorem OnCourse.no_restore (h : r.OnCourse) (hc : r.cancelled = true) (hp : r.phase = .backup)
    (turns : List Turn) : .restore ∉ (r.after turns).phases := by
  obtain ⟨entered, hentered, hfilter⟩ := (heeds_of_cancelled hc turns).phases
  rw [hentered, h.phases_of_backup hp]
  intro hmem
  have hmem : Phase.restore ∈ entered.filter (!·.isTerminal) := by
    refine List.mem_filter.mpr ⟨?_, rfl⟩
    exact (List.mem_append.mp hmem).resolve_right (by decide)
  -- the worker would be about to enter it, which it is in the phase before only
  have henters : r.stage.enters = some .restore := Option.mem_toList.mp (hfilter.subset hmem)
  have hphases := h.phases_of_backup hp
  unfold OnCourse at h
  generalize r.stage = s at h henters
  cases s with
  | working task =>
    cases task with
    | enterRestore destination =>
      have hreverse : r.phases.reverse = [.idle, .backup, .resolveDestination] := h
      rw [hphases] at hreverse
      cases hreverse
    | _ => cases henters
  | _ => cases henters

/-- **Cancellations are heeded.**  Whenever a migration is cancelled, and whatever turns it goes on
by, the worker heeds it.  If it is cancelled in the backup, the worker never connects to a device to
restore into, and in the end no device was asked for more than one record that was not backed up. -/
theorem cancellation_heeded (plan : Plan) (bus : Device.Bus) (files : Files)
    (turns later : List Turn) :
    let start : Run := { plan, bus, files }
    let r := start.after turns
    r.cancelled = true →
      r.Heeds later ∧
      (r.phase = .backup →
        (∀ stage ∈ start.worked (turns ++ later), ∀ info,
          stage.connectsTo ≠ some (.destination info)) ∧
        ((r.after later).stage = .finished → ∀ n,
          (start.told n (turns ++ later)).countP Exchange.asks ≤
            (r.after later).report.backedUp + 1)) := by
  intro start r hc
  have hcourse : start.OnCourse := onCourse_start plan bus files
  have hlater : start.after (turns ++ later) = r.after later := List.foldl_append
  refine ⟨heeds_of_cancelled hc later, fun hp => ⟨fun stage hstage info hconnects => ?_,
    fun hfinished n => ?_⟩⟩
  · have hrestore := hcourse.restore_of_worked hstage hconnects
    rw [hlater] at hrestore
    have hr : r.OnCourse := after_of_turn (fun _ t h => h.turn t) hcourse turns
    exact hr.no_restore hc hp later hrestore
  · have hasks := start.told_asks n (turns ++ later)
    have haccounts : start.Accounts [] := ⟨rfl, rfl⟩
    have hbackedUp : (r.after later).report.backedUp = (start.archived (turns ++ later)).length := by
      have hr := haccounts.after (turns ++ later)
      rwa [hlater, Accounts, hfinished] at hr
    rw [hbackedUp]
    exact (Nat.le_add_right _ _).trans (hasks.trans (Nat.add_le_add_left (missing_le _) _))

/-- The backup of three memos is cancelled when the first is in the archive and the worker is about
to move the second: it moves that one, and neither asks for the third nor connects to the destination
of the plan. -/
theorem cancellation_heeded_backingUp :
    let memo (id : UniqueId) (content : List UInt8) : Record := ⟨"Memos", id, 0, ⟨content.toArray⟩⟩
    let s : Device :=
      { databases := [{ name := "Memos", records :=
          Slots.numbered 0 [memo 7 [1], memo 8 [2, 3], memo 9 []] }] }
    let plan : Plan :=
      { source := ⟨1, "Old"⟩, destination := some ⟨2, "New"⟩, archivePath := ⟨"backup.tar"⟩ }
    let bus := (({} : Device.Bus).plugIn plan.source s).plugIn ⟨2, "New"⟩ {}
    let start : Run := { plan, bus, files := {} }
    let work : Turn := .work fun _ _ _ => none
    let turns := List.replicate 7 work ++ [.incident .cancel]
    let later := List.replicate 4 work
    let r := start.after turns
    r.cancelled = true ∧ r.phase = .backup ∧ (r.after later).stage = .finished ∧
      (r.worked later).countP Stage.pumps = 1 ∧
      (r.after later).report = ⟨.cancelled, 2, 0, [], none⟩ ∧ r.Heeds later ∧
      (∀ stage ∈ start.worked (turns ++ later), ∀ info,
        stage.connectsTo ≠ some (.destination info)) ∧
      ∀ n, (start.told n (turns ++ later)).countP Exchange.asks ≤ 3 := by
  intro memo s plan bus start work turns later r
  have hc : r.cancelled = true := by decide +kernel
  have hp : r.phase = .backup := by decide +kernel
  have hfinished : (r.after later).stage = .finished := finished_of_isOver (by decide +kernel)
  have hreport : (r.after later).report = ⟨.cancelled, 2, 0, [], none⟩ := by decide +kernel
  obtain ⟨hheeds, hbackup⟩ := cancellation_heeded plan bus {} turns later hc
  obtain ⟨hconnects, hasks⟩ := hbackup hp
  refine ⟨hc, hp, hfinished, by decide +kernel, hreport, hheeds, hconnects, fun n => ?_⟩
  exact (hasks hfinished n).trans (by decide +kernel)

end Run

end Palmtop.Migration
