import Palmtop.Proofs.Migration.Moves

/-! # From phase to phase

A migration enters its phases in their order and comes to an end out of any of them
(`Run.OnCourse`).  It ends as cancelled only if it was cancelled, and as completed only from the last
phase.
-/
namespace Palmtop.Migration

/-- The phases before the last one, in their order. -/
def Phase.course : List Phase := [.backup, .resolveDestination, .restore]

/-- The phases entered when the worker is at this side. -/
def Side.entered : Side → List Phase
  | .source => [.backup]
  | .destination _ => Phase.course

/-- The phases entered when the worker is at this task. -/
def Task.entered : Task → List Phase
  | .enterBackup => []
  | .connect side _ => side.entered
  | .backUp _ | .enterResolve => [.backup]
  | .ask | .enterRestore _ => [.backup, .resolveDestination]
  | .restore _ => Phase.course

theorem Side.entered_prefix (side : Side) : side.entered <+: Phase.course := by
  cases side with
  | source => exact ⟨[.resolveDestination, .restore], rfl⟩
  | destination _ => exact List.prefix_rfl

theorem Task.entered_prefix (task : Task) : task.entered <+: Phase.course := by
  cases task with
  | enterBackup => exact List.nil_prefix
  | connect side _ => exact side.entered_prefix
  | backUp _ | enterResolve => exact ⟨[.resolveDestination, .restore], rfl⟩
  | ask | enterRestore _ => exact ⟨[.restore], rfl⟩
  | restore _ => exact List.prefix_rfl

namespace Run

/-- Behind the idle phase, these phases were entered. -/
def Entered (r : Run) (phases : List Phase) : Prop := r.phases.reverse = .idle :: phases

/-- The run is about to end out of some phase, and for a reason. -/
structure Leaves (r : Run) (result : Except Error Unit) (phases : List Phase) : Prop where
  entered : r.Entered phases
  ordered : phases <+: Phase.course
  completed : result = .ok () → phases = Phase.course
  cancelled : result = .error .cancelled → r.cancelled = true

/-- The run has ended in this phase, out of some other. -/
structure Ended (r : Run) (phases : List Phase) (last : Phase) : Prop where
  entered : r.Entered (phases ++ [last])
  ordered : phases <+: Phase.course
  terminal : last.isTerminal = true
  done : last = .done ↔ r.report.outcome = .completed
  completed : r.report.outcome = .completed → phases = Phase.course
  cancelled : r.report.outcome = .cancelled → r.cancelled = true

/-- The phases entered are those that lead to where the worker is. -/
def OnCourse (r : Run) : Prop :=
  match r.stage with
  | .checking task | .working task => r.Entered task.entered
  | .awaitingPassword side _ | .taking side _ => r.Entered side.entered
  | .awaitingDestination _ => r.Entered [.backup, .resolveDestination]
  | .closing b result => r.Entered [.backup] ∧ (result = .ok () → b.reader.ended = true) ∧
      (result = .error .cancelled → r.cancelled = true)
  | .ending result => ∃ phases, r.Leaves result phases
  | .finished => ∃ phases last, r.Ended phases last

variable {r r' : Run} {sessions : Device.Bus.Sessions}

theorem leaves_of_entered {phases : List Phase} {e : Error} (h : r.Entered phases)
    (hphases : phases <+: Phase.course) (hc : e = .cancelled → r.cancelled = true) :
    r.Leaves (.error e) phases :=
  ⟨h, hphases, nofun, fun he => hc (Except.error.inj he)⟩

theorem entered_enter {phases : List Phase} (h : r.Entered phases) (phase : Phase) :
    (phase :: r.phases).reverse = .idle :: (phases ++ [phase]) := by
  rw [List.reverse_cons, h, List.cons_append]

/-- How a run ends tells what it ends with. -/
theorem conclusion_cases (result : Except Error Unit) :
    (result = .ok () ∧ conclusion result = (.completed, .done)) ∨
    (result = .error .cancelled ∧ conclusion result = (.cancelled, .aborted)) ∨
    ∃ reason, conclusion result = (.failed reason, .aborted) := by
  unfold conclusion
  split
  · exact Or.inl ⟨rfl, rfl⟩
  · exact Or.inr (Or.inl ⟨rfl, rfl⟩)
  · exact Or.inr (Or.inr ⟨_, rfl⟩)

theorem Moves.onCourse (h : r.Moves sessions r') (hr : r.OnCourse) : r'.OnCourse := by
  unfold OnCourse at hr
  cases h with
  | rests => exact hr
  | @drops task stage cancelled =>
    rw [stage] at hr
    exact ⟨task.entered, leaves_of_entered hr task.entered_prefix fun _ => cancelled⟩
  | dropsRestore stage cancelled =>
    rw [stage] at hr
    exact ⟨_, leaves_of_entered hr List.prefix_rfl fun _ => cancelled⟩
  | dropsBackup stage cancelled =>
    rw [stage] at hr
    exact ⟨hr, nofun, fun _ => cancelled⟩
  | entersBackup stage | entersResolve stage | settles stage | entersRestore stage =>
    rw [stage] at hr
    exact entered_enter hr _
  | proceeds stage | connects stage | locked stage | unlocks stage | asks stage | rejects stage
  | chooses stage | opensBackup stage | passes stage | archives stage | opensRestore stage
  | skips stage | puts stage | givesUp stage =>
    rw [stage] at hr
    exact hr
  | @connectsNot side _ _ _ stage =>
    rw [stage] at hr
    exact ⟨side.entered, leaves_of_entered hr side.entered_prefix nofun⟩
  | abandons stage =>
    generalize r.stage = s at stage hr
    cases s with
    | awaitingPassword side gate =>
      exact ⟨side.entered, leaves_of_entered hr side.entered_prefix fun _ => rfl⟩
    | awaitingDestination gate =>
      exact ⟨_, leaves_of_entered hr ⟨[.restore], rfl⟩ fun _ => rfl⟩
    | _ => cases stage
  | opensNoBackup stage _ _ failed =>
    rw [stage] at hr
    exact ⟨_, leaves_of_entered hr (Side.entered_prefix .source) fun he => absurd he failed⟩
  | opensNoRestore stage _ _ failed =>
    rw [stage] at hr
    exact ⟨_, leaves_of_entered hr List.prefix_rfl fun he => absurd he failed⟩
  | reachesEnd stage ended =>
    rw [stage] at hr
    exact ⟨hr, fun _ => ended, nofun⟩
  | archivesNot stage _ _ _ failed =>
    rw [stage] at hr
    exact ⟨hr, nofun, fun he => absurd (Except.error.inj he) failed⟩
  | closes stage =>
    rw [stage] at hr
    exact hr.1
  | breaksOff stage =>
    rw [stage] at hr
    exact ⟨_, hr.1, Side.entered_prefix .source, nofun, hr.2.2⟩
  | restoresAll stage =>
    rw [stage] at hr
    exact ⟨_, hr, List.prefix_rfl, fun _ => rfl, nofun⟩
  | putsNot stage | readsNot stage =>
    rw [stage] at hr
    exact ⟨_, leaves_of_entered hr List.prefix_rfl nofun⟩
  | @concludes result _ stage =>
    rw [stage] at hr
    obtain ⟨phases, hentered, hordered, hcompleted, hcancelled⟩ := hr
    have hentered := entered_enter hentered (conclusion result).2
    rcases conclusion_cases result with ⟨rfl, hresult⟩ | ⟨rfl, hresult⟩ | ⟨reason, hresult⟩
    · rw [hresult] at hentered ⊢
      exact ⟨phases, _, hentered, hordered, rfl, ⟨fun _ => rfl, fun _ => rfl⟩,
        fun _ => hcompleted rfl, nofun⟩
    · rw [hresult] at hentered ⊢
      exact ⟨phases, _, hentered, hordered, rfl, ⟨nofun, nofun⟩, nofun, fun _ => hcancelled rfl⟩
    · rw [hresult] at hentered ⊢
      exact ⟨phases, _, hentered, hordered, rfl, ⟨nofun, nofun⟩, nofun, nofun⟩

theorem Stirs.onCourse (h : r.Stirs r') (hr : r.OnCourse) : r'.OnCourse := by
  obtain ⟨-, hstage, hphases, hreport, hcancelled, -⟩ := h
  have hentered {phases : List Phase} (he : r.Entered phases) : r'.Entered phases := by
    rwa [Entered, hphases]
  unfold OnCourse at hr ⊢
  generalize r.stage = s, r'.stage = s' at hr hstage
  cases hstage with
  | self =>
    cases s with
    | checking | working | awaitingPassword | awaitingDestination | taking => exact hentered hr
    | closing b result => exact ⟨hentered hr.1, hr.2.1, fun he => hcancelled (hr.2.2 he)⟩
    | ending result =>
      obtain ⟨phases, he, hordered, hcompleted, hc⟩ := hr
      exact ⟨phases, hentered he, hordered, hcompleted, fun hresult => hcancelled (hc hresult)⟩
    | finished =>
      obtain ⟨phases, last, he, hordered, hterminal, hdone, hcompleted, hc⟩ := hr
      rw [← hreport] at hdone hcompleted hc
      exact ⟨phases, last, hentered he, hordered, hterminal, hdone, hcompleted,
        fun hresult => hcancelled (hc hresult)⟩
  | password => exact hentered hr
  | destination => exact hentered hr

theorem OnCourse.turn (h : r.OnCourse) (t : Turn) : (r.turn t).OnCourse := by
  rcases r.turn_cases t with ⟨refusals, -, hmoves⟩ | ⟨-, hstirs⟩
  · exact hmoves.onCourse h
  · exact hstirs.onCourse h

theorem onCourse_start (plan : Plan) (bus : Device.Bus) (files : Files) :
    ({ plan, bus, files } : Run).OnCourse := rfl

end Run

end Palmtop.Migration
