import Palmtop.Device.Reader
import Palmtop.Device.Writer
import Palmtop.Proofs.Transfer

/-! # Sessions over larger states

A session over a larger state, such as a bus with several devices, may do to a part of it what
another session does by itself (`Session.Embeds`).  A reader or a writer cannot tell the two apart:
what it hands out or takes over the one session, it hands out or takes over the other.
-/
namespace Palmtop.Device

variable {σ τ : Type} {small : Session σ} {large : Session τ} {place : σ → τ}

/-- The large session does in the image of `place` what the small one does. -/
structure Session.Embeds (small : Session σ) (large : Session τ) (place : σ → τ) : Prop where
  run : ∀ c s, large.run c (place s) = ((small.run c s).1, place (small.run c s).2)

namespace Reader

theorem advance_embeds (h : small.Embeds large place) (names : List String) (s : σ) :
    advance large names (place s) = ((advance small names s).1, (advance small names s).2.1,
      place (advance small names s).2.2) := by
  induction names generalizing s with
  | nil => rfl
  | cons name rest ih =>
    simp only [advance, Session.databaseId, Session.slotTable, Session.readRecord, h.run]
    rcases small.run (.databaseId name) s with ⟨e | id, s₁⟩
    · rfl
    simp only [h.run]
    rcases small.run (.slotTable id) s₁ with ⟨e | table, s₂⟩
    · rfl
    simp only
    cases table.slots with
    | nil => exact ih s₂
    | cons slot pending =>
      simp only [h.run]
      rcases small.run (.readRecord id slot) s₂ with ⟨e | r, s₃⟩ <;> rfl

theorem next_embeds (h : small.Embeds large place) (r : Reader) (s : σ) :
    next large r (place s)
      = ((next small r s).1, (next small r s).2.1, place (next small r s).2.2) := by
  unfold next
  split
  · rfl
  split
  · rename_i database id slot pending _
    simp only [Session.readRecord, h.run]
    rcases small.run (.readRecord id slot) s with ⟨e | x, s'⟩ <;> rfl
  · exact advance_embeds h r.databases s

/-- What is read over the small session is read over the large one. -/
theorem yields_embeds (h : small.Embeds large place) {r r' : Reader} {s s' : σ}
    {rs : List Record} (hy : (producer small).Yields (r, s) rs (r', s')) :
    (producer large).Yields (r, place s) rs (r', place s') :=
  hy.map (Prod.map id place) (fun _ => rfl) fun p => next_embeds h p.1 p.2

end Reader

namespace Writer

theorem reach_embeds (h : small.Embeds large place) (w : Writer) (name : String) (s : σ) :
    w.reach large name (place s) = ((w.reach small name s).1, (w.reach small name s).2.1,
      place (w.reach small name s).2.2) := by
  unfold reach
  split
  · rfl
  simp only [Session.databaseId, h.run]
  rcases small.run (.databaseId name) s with ⟨e | id, s₁⟩
  · rfl
  simp only [Session.clearDatabase, Session.slotTable, h.run]
  split
  · rcases small.run (.clearDatabase id) s₁ with ⟨e | _, s₂⟩ <;> rfl
  · rcases small.run (.slotTable id) s₁ with ⟨e | table, s₂⟩ <;> rfl

theorem freshTarget_embeds (h : small.Embeds large place) (w : Writer) (name : String) (s : σ) :
    w.freshTarget large name (place s)
      = ((w.freshTarget small name s).1, (w.freshTarget small name s).2.1,
        place (w.freshTarget small name s).2.2) := by
  simp only [freshTarget, reach_embeds h]
  rcases w.reach small name s with ⟨e | t, w₁, s₁⟩
  · rfl
  simp only
  split
  · simp only [Session.slotTable, h.run]
    rcases small.run (.slotTable t.id) s₁ with ⟨e | table, s₂⟩ <;> rfl
  · rfl

theorem afterMutation_embeds (w : Writer) (result : Except Error Unit × σ) (f : σ → τ) :
    w.afterMutation (result.1, f result.2) = ((w.afterMutation result).1,
      (w.afterMutation result).2.1, f (w.afterMutation result).2.2) := by
  rcases result with ⟨e | _, s⟩ <;> rfl

theorem put_embeds (h : small.Embeds large place) (w : Writer) (r : Record) (s : σ) :
    w.put large r (place s)
      = ((w.put small r s).1, (w.put small r s).2.1, place (w.put small r s).2.2) := by
  simp only [put, freshTarget_embeds h]
  rcases w.freshTarget small r.database s with ⟨e | t, w₁, s₁⟩
  · rfl
  simp only [Session.writeRecord, Session.addRecord, h.run, afterMutation_embeds]
  split <;> rfl

/-- What is given up over the small session is given up over the large one. -/
theorem givesUp_embeds (h : small.Embeds large place) {w w' : Writer} {s s' : σ}
    {rs : List Record} {es : List (String × Error)}
    (hg : (consumer small).GivesUp (w, s) rs es (w', s')) :
    (consumer large).GivesUp (w, place s) rs es (w', place s') :=
  hg.map (Prod.map id place) fun r p => put_embeds h p.1 r p.2

end Writer

end Palmtop.Device
