import Palmtop.Proofs.Migration.Moves

/-! # What a migration posts

Events are never taken back.  At each step the worker posts one request at most, and only where it
connects to a device or asks for a destination (`Run.posts_step`); others post nothing.
-/
namespace Palmtop.Migration

/-- How many requests the worker posts there, at most. -/
def Stage.requests : Stage → Nat
  | .working (.connect _ _) | .working .ask => 1
  | _ => 0

theorem Stage.requests_le (s : Stage) : s.requests ≤ 1 := by
  unfold requests
  split <;> decide

namespace Run

variable {r r' : Run} {sessions : Device.Bus.Sessions} {n : Nat}

/-- The events posted from one state to the other, with so many requests among them at most. -/
def Posts (n : Nat) (r r' : Run) : Prop :=
  ∃ news, r'.posted = news ++ r.posted ∧ news.countP Event.isRequest ≤ n

theorem posts_of_eq (h : r'.posted = r.posted) : r.Posts n r' := ⟨[], h, Nat.zero_le n⟩

/-- No request is among them. -/
theorem posts_of_cons {event : Event} (h : r'.posted = event :: r.posted)
    (hevent : event.isRequest = false) : r.Posts n r' := by
  refine ⟨[event], h, ?_⟩
  rw [List.countP_singleton, hevent]
  exact Nat.zero_le n

/-- One event is one request at most. -/
theorem posts_request {event : Event} (h : r'.posted = event :: r.posted) : r.Posts 1 r' :=
  ⟨[event], h, List.countP_le_length⟩

theorem posts_postBlock (r : Run) (text : String) (processed total : Nat) :
    r.Posts n (r.postBlock text processed total) := by
  unfold postBlock
  split
  · exact posts_of_cons rfl rfl
  · exact posts_of_eq rfl

theorem posts_drop (r : Run) (task : Task) : r.Posts n (r.drop task) := by
  cases task with
  | _ => exact posts_of_eq rfl

theorem posts_resolve (r : Run) : r.Posts n r.resolve := by
  unfold resolve
  split
  · exact posts_of_eq rfl
  split
  · exact posts_of_cons rfl rfl
  · exact posts_of_eq rfl

theorem posts_connect (r : Run) (side : Side) (password : Option String) :
    r.Posts 1 (r.connect side password) := by
  unfold connect
  dsimp only
  split
  · exact posts_of_eq rfl
  split
  · exact posts_of_eq rfl
  · exact posts_request rfl

theorem posts_takePassword (r : Run) (side : Side) (answer : Option String) :
    r.Posts n (r.takePassword side answer) := by
  unfold takePassword
  split
  · split
    · exact posts_of_eq rfl
    · exact posts_of_eq rfl
  · exact posts_of_eq rfl

theorem posts_takeDestination (r : Run) (answer : Option DeviceInfo) :
    r.Posts n (r.takeDestination answer) := by
  unfold takeDestination
  split
  · exact posts_of_eq rfl
  split
  · exact posts_of_cons rfl rfl
  · exact posts_of_eq rfl

theorem posts_openBackup (r : Run) (id : Device.ConnectionId) :
    r.Posts n (r.openBackup id sessions) := by
  unfold openBackup
  split
  · exact posts_of_eq rfl
  split
  · exact posts_of_eq rfl
  · exact posts_of_cons rfl rfl

theorem posts_backUp (r : Run) (b : Backup) : r.Posts n (r.backUp b sessions) := by
  unfold backUp
  split
  · exact posts_of_eq rfl
  split
  · exact posts_of_eq rfl
  · exact posts_of_eq rfl
  · exact posts_postBlock (n := n) { r with bus := _ } _ _ _

theorem posts_closeBackup (r : Run) (b : Backup) (result : Except Error Unit) :
    r.Posts n (r.closeBackup b result) := by
  cases result with
  | ok => exact posts_of_cons rfl rfl
  | error e => exact posts_of_eq rfl

theorem posts_openRestore (r : Run) (destination : DeviceInfo) (id : Device.ConnectionId) :
    r.Posts n (r.openRestore destination id sessions) := by
  unfold openRestore
  split
  · exact posts_of_eq rfl
  split
  · exact posts_of_eq rfl
  split
  · exact posts_of_eq rfl
  dsimp only
  split
  · exact posts_of_cons rfl rfl
  · exact posts_of_eq rfl

theorem posts_restore (r : Run) (x : Restore) : r.Posts n (r.restore x sessions) := by
  unfold restore
  split
  · exact posts_of_cons rfl rfl
  split
  · dsimp only
    split
    · exact posts_postBlock (n := n) { r with bus := _ } _ _ _
    · exact posts_of_eq rfl
  · exact posts_of_eq rfl
  · dsimp only
    split
    · exact posts_of_eq rfl
    · exact posts_of_cons rfl rfl

theorem posts_perform (r : Run) (task : Task) :
    r.Posts (Stage.working task).requests (r.perform task sessions) := by
  cases task with
  | enterBackup | enterRestore => exact posts_of_eq rfl
  | enterResolve => exact posts_resolve (n := 0) (r.enter .resolveDestination)
  | connect side password => exact posts_connect r side password
  | ask => exact posts_request rfl
  | backUp b => exact posts_backUp r b
  | restore x => exact posts_restore r x

theorem posts_conclude (r : Run) (result : Except Error Unit) : r.Posts n (r.conclude result) := by
  unfold conclude
  dsimp only
  split
  · refine ⟨[_, _], rfl, ?_⟩
    exact Nat.zero_le n
  · exact posts_of_cons rfl rfl

/-- The worker posts a request only when it connects or asks for a destination. -/
theorem posts_step (r : Run) (sessions : Device.Bus.Sessions) :
    r.Posts r.stage.requests (r.step sessions) := by
  unfold step
  split
  · split
    · exact posts_drop r _
    · exact posts_of_eq rfl
  · rename_i hstage
    rw [hstage]
    exact posts_perform r _
  · split
    · exact posts_of_eq rfl
    · exact posts_takePassword r _ _
  · split
    · exact posts_of_eq rfl
    · exact posts_takeDestination r _
  · split
    · exact posts_of_eq rfl
    split
    · exact posts_openBackup { r with bus := _ } _
    · exact posts_openRestore { r with bus := _ } _ _
  · exact posts_closeBackup r _ _
  · exact posts_conclude r _
  · exact posts_of_eq rfl

/-- Others post nothing. -/
theorem posted_turn {t : Turn} (ht : ∀ refusals, t ≠ .work refusals) :
    (r.turn t).posted = r.posted := by
  cases t with
  | work refusals => exact absurd rfl (ht refusals)
  | leave => rfl
  | reply reply =>
    show (r.receive (some reply)).posted = r.posted
    unfold receive answerPassword answerDestination decline
    repeat' split
    all_goals rfl
  | incident incident =>
    cases incident with
    | cancel | unplug | plugIn => rfl
    | breakLink | refuseTable =>
      show (Incident.changeDevice _ _ _).posted = r.posted
      unfold Incident.changeDevice
      split <;> rfl
    | removeFile | writeFile =>
      show (Incident.changeFiles _ _).posted = r.posted
      unfold Incident.changeFiles
      split <;> rfl

end Run

end Palmtop.Migration
