import Palmtop.Proofs.Migration.Moves

/-! # What the worker holds

Whoever uses a device holds its connection, and gives it back.  The connections that the worker of a
migration holds are read off the bus, before and after each of its steps: those it took, as long as
they are held.  It holds the one it works over and no other (`Run.Moves.isHeld`), and so none while
it waits for the user.
-/
namespace Palmtop

namespace Device.Bus

variable {bus bus' : Bus} {id other : ConnectionId}

/-- Whether somebody holds the connection. -/
def isHeld (bus : Bus) (id : ConnectionId) : Bool := (bus.connections[id]?).any (·.held)

theorem isHeld_congr (h : bus'.connections = bus.connections) (id : ConnectionId) :
    bus'.isHeld id = bus.isHeld id := by
  rw [isHeld, isHeld, h]

theorem isHeld_release (bus : Bus) (id other : ConnectionId) :
    (bus.release id).isHeld other = (bus.isHeld other && other != id) := by
  rw [isHeld, isHeld, release]
  simp only [List.getElem?_modify]
  by_cases he : id = other
  · cases h : bus.connections[other]? with
    | none => simp
    | some c => simp [he]
  · have hne : (other != id) = true := bne_iff_ne.mpr (Ne.symm he)
    cases h : bus.connections[other]? with
    | none => simp
    | some c => simp [he, hne]

/-- Whoever takes a connection takes no other. -/
theorem isHeld_of_acquire (h : bus.acquire? id = some bus') (hheld : bus'.isHeld other = true) :
    other = id ∨ bus.isHeld other = true := by
  unfold acquire? at h
  split at h
  · cases h
    rw [isHeld, List.getElem?_modify] at hheld
    by_cases he : id = other
    · exact Or.inl he.symm
    · rw [isHeld]
      cases hc : bus.connections[other]? with
      | none => simp [hc] at hheld
      | some c => exact Or.inr (by simpa [hc, he] using hheld)
  · cases h

/-- A new connection is held by nobody. -/
theorem isHeld_of_append {c : Connection} (hc : c.held = false)
    (h : bus'.connections = bus.connections ++ [c]) (hheld : bus'.isHeld other = true) :
    bus.isHeld other = true := by
  rw [isHeld, h, List.getElem?_append] at hheld
  split at hheld
  · exact hheld
  · rw [List.getElem?_singleton] at hheld
    split at hheld
    · rw [Option.any_some, hc] at hheld
      cases hheld
    · cases hheld

theorem isHeld_of_connect {info : DeviceInfo} {password : Option String}
    {answer : Except Error ConnectionId} (h : bus.connect info password = (answer, bus'))
    (hheld : bus'.isHeld other = true) : bus.isHeld other = true := by
  unfold connect at h
  split at h
  · cases h
    exact hheld
  split at h
  · cases h
    exact hheld
  split at h
  · cases h
    exact hheld
  split at h
  · cases h
    exact hheld
  · cases h
    exact isHeld_of_append rfl rfl hheld

theorem connections_refuse (bus : Bus) (id : ConnectionId) (c : Command) :
    (bus.refuse id c).connections = bus.connections := by
  unfold refuse
  split
  · rfl
  · split
    · rfl
    · rfl

theorem connections_run (bus : Bus) (id : ConnectionId) (c : Command) :
    ((session id).run c bus).2.connections = bus.connections := by
  simp only [session]
  split
  · rfl
  · split
    · rfl
    · rfl

/-- Commands take and release nothing. -/
theorem notes_connections (refusals : Refusals) (id : ConnectionId) :
    (sessionsWith refusals id).Notes fun _ bus bus' => bus'.connections = bus.connections where
  nothing _ := rfl
  trans h h' := h'.trans h
  run c bus := by
    refine .inl ?_
    simp only [sessionsWith]
    split
    · exact connections_refuse bus id c
    · exact connections_run bus id c

section notes
variable {refusals : Refusals} {bus bus' : Bus} {id : ConnectionId}

theorem connections_catalog {answer : Except Error (List CatalogEntry)}
    (h : (sessionsWith refusals id).catalog bus = (answer, bus')) :
    bus'.connections = bus.connections := by
  obtain ⟨-, hsame, -⟩ :=
    (notes_connections refusals id).look ⟨[], rfl, List.forall_mem_nil _⟩ h rfl
  exact hsame

theorem connections_next {reader reader' : Reader} {answer : Except Error (Option Record)}
    (h : reader.next (sessionsWith refusals id) bus = (answer, reader', bus')) :
    bus'.connections = bus.connections := by
  obtain ⟨-, hsame, -⟩ := Reader.next_notes (notes_connections refusals id) reader
    ⟨[], rfl, List.forall_mem_nil _⟩
  rw [h] at hsame
  exact hsame

theorem connections_put {writer writer' : Writer} {record : Record} {answer : Except Error Unit}
    (h : writer.put (sessionsWith refusals id) record bus = (answer, writer', bus')) :
    bus'.connections = bus.connections := by
  obtain ⟨-, ⟨-, hsame, -⟩, -⟩ := (Writer.put_notes (notes_connections refusals id) writer record
    (s := bus) (n := 0) ⟨[], rfl, rfl⟩).stored
  rw [h] at hsame
  exact hsame

end notes

end Device.Bus

namespace Migration

/-- The connection that the worker works over. -/
def Stage.connection? : Stage → Option Device.ConnectionId
  | .checking (.backUp b) | .working (.backUp b) | .closing b _ => some b.connection
  | .checking (.restore x) | .working (.restore x) => some x.connection
  | _ => none

theorem Stage.connection?_of_isAwaiting {stage : Stage} (h : stage.isAwaiting = true) :
    stage.connection? = none := by
  cases stage with
  | awaitingPassword | awaitingDestination => rfl
  | checking | working | taking | closing | ending | finished => cases h

namespace Run

open Device.Bus

variable {r r' : Run} {refusals : Device.Bus.Refusals} {id : Device.ConnectionId}

/-- Where the worker gives back the connection that it worked over, it works over no other that is
held. -/
theorem isHeld_of_release {bus : Device.Bus} {c : Device.ConnectionId}
    (hstage : r.stage.connection? = some c) (hheld : (bus.release c).isHeld id = true) :
    bus.isHeld id = true ∧ r.stage.connection? ≠ some id := by
  rw [isHeld_release, Bool.and_eq_true, bne_iff_ne] at hheld
  refine ⟨hheld.1, fun h => hheld.2 ?_⟩
  exact Option.some.inj (h.symm.trans hstage)

theorem isHeld_of_connections {bus bus' : Device.Bus} (h : bus'.connections = bus.connections)
    (hheld : bus'.isHeld id = true) : bus.isHeld id = true :=
  (isHeld_congr h id).symm.trans hheld

/-- A connection that is held after a step of the worker was held before, and the worker goes on
over it if it worked over it; or it is the one that the worker works over now. -/
theorem Moves.isHeld (h : r.Moves (sessionsWith refusals) r') (hheld : r'.bus.isHeld id = true) :
    r.bus.isHeld id = true ∧ (r.stage.connection? = some id → r'.stage.connection? = some id) ∨
      r'.stage.connection? = some id := by
  cases h with
  | rests => exact .inl ⟨hheld, fun h => h⟩
  | @proceeds task stage =>
    refine .inl ⟨hheld, fun h => ?_⟩
    rw [stage] at h
    cases task with
    | backUp | restore => exact h
    | enterBackup | enterResolve | enterRestore | connect | ask => cases h
  | @drops task stage _ idle =>
    refine .inl ⟨hheld, fun h => ?_⟩
    rw [stage] at h
    cases task with
    | backUp | restore => cases idle
    | enterBackup | enterResolve | enterRestore | connect | ask => cases h
  | abandons stage =>
    refine .inl ⟨hheld, fun h => ?_⟩
    rw [Stage.connection?_of_isAwaiting stage] at h
    cases h
  -- the worker works over no connection yet
  | entersBackup stage | entersResolve stage | settles stage | entersRestore stage | unlocks stage
  | asks stage | rejects stage | chooses stage | concludes stage =>
    exact .inl ⟨hheld, fun h => by rw [stage] at h; cases h⟩
  | connects stage connect | locked stage connect | connectsNot stage connect =>
    exact .inl ⟨isHeld_of_connect connect hheld, fun h => by rw [stage] at h; cases h⟩
  | opensBackup stage taken catalog | opensRestore stage taken catalog =>
    rcases isHeld_of_acquire taken (isHeld_of_connections (connections_catalog catalog) hheld) with
      rfl | hbefore
    · exact .inr rfl
    · exact .inl ⟨hbefore, fun h => by rw [stage] at h; cases h⟩
  | opensNoBackup stage taken catalog | opensNoRestore stage taken catalog =>
    dsimp only at hheld
    rw [isHeld_release, Bool.and_eq_true, bne_iff_ne] at hheld
    have htaken := isHeld_of_connections (connections_catalog catalog) hheld.1
    exact .inl ⟨(isHeld_of_acquire taken htaken).resolve_left hheld.2,
      fun h => by rw [stage] at h; cases h⟩
  -- it goes on over the same connection
  | dropsBackup stage | reachesEnd stage | skips stage =>
    exact .inl ⟨hheld, fun h => by rw [stage] at h; exact h⟩
  | passes stage _ read | archives stage _ read | archivesNot stage _ read =>
    exact .inl ⟨isHeld_of_connections (connections_next read) hheld,
      fun h => by rw [stage] at h; exact h⟩
  | puts stage _ put | givesUp stage _ put =>
    exact .inl ⟨isHeld_of_connections (connections_put put) hheld,
      fun h => by rw [stage] at h; exact h⟩
  -- it gives the connection back
  | dropsRestore stage | closes stage | breaksOff stage | restoresAll stage | readsNot stage =>
    obtain ⟨hbefore, hother⟩ := isHeld_of_release (congrArg Stage.connection? stage) hheld
    exact .inl ⟨hbefore, fun h => absurd h hother⟩
  | putsNot stage _ put =>
    obtain ⟨hbefore, hother⟩ := isHeld_of_release (congrArg Stage.connection? stage) hheld
    exact .inl ⟨isHeld_of_connections (connections_put put) hbefore, fun h => absurd h hother⟩

end Run

end Migration

end Palmtop
