import Palmtop.Proofs.Device.Wiring

/-! # How many records are asked for

Of what is said over a session, only the reading of a record asks for one.  A reader asks for one
record at a time, and for none if there is none left (`Reader.next_asks`); a writer asks for none
(`Writer.put_asks`).  As `Hears` says what each device heard, `Bus.Asks` says that none of them was
asked for more than so many records.
-/
namespace Palmtop.Device

/-- Whether the command asks for a record. -/
def Command.isReading : Command → Bool
  | .readRecord _ _ => true
  | _ => false

/-- Whether the exchange asks for a record. -/
def Exchange.asks (e : Exchange) : Bool := e.command.isReading

/-- From one state to another with so many records asked for at most. -/
def Asking {σ : Type} (U : List Exchange → σ → σ → Prop) (n : Nat) (s t : σ) : Prop :=
  ∃ news, U news s t ∧ news.countP Exchange.asks ≤ n

section notes

variable {σ : Type} {session : Session σ} {U : List Exchange → σ → σ → Prop} {s t t' : σ} {n : Nat}

theorem Asking.mono {m : Nat} (h : Asking U n s t) (hnm : n ≤ m) : Asking U m s t := by
  obtain ⟨news, hnews, hcount⟩ := h
  exact ⟨news, hnews, hcount.trans hnm⟩

/-- One command asks for one record, or for none. -/
theorem Session.Notes.ask {c : Command} {answer : Except Error c.Answer} (h : session.Notes U)
    (before : Asking U n s t) (hrun : session.run c t = (answer, t')) :
    Asking U (n + c.isReading.toNat) s t' := by
  obtain ⟨news, hnews, hcount⟩ := before
  have hnoted := h.run c t
  rw [hrun] at hnoted
  rcases hnoted with hnoted | ⟨-, hnoted⟩
  · refine ⟨_, h.trans hnews hnoted, ?_⟩
    rw [List.countP_append, List.countP_singleton, Nat.add_comm]
    refine Nat.add_le_add hcount (Nat.le_of_eq ?_)
    rw [Exchange.asks]
    cases c.isReading <;> rfl
  · exact ⟨_, h.trans hnews hnoted, hcount.trans (Nat.le_add_right _ _)⟩

namespace Reader

/-- How many records are asked for when the reader answers so. -/
def asked : Except Error (Option Record) → Nat
  | .ok none => 0
  | .ok (some _) | .error _ => 1

theorem advance_asks (h : session.Notes U) (names : List String) (before : Asking U n s t) :
    Asking U (n + asked (advance session names t).1) s (advance session names t).2.2 := by
  induction names generalizing t with
  | nil => exact before
  | cons name names ih =>
    unfold advance
    split
    · rename_i hid
      exact (h.ask before hid).mono (Nat.le_succ n)
    rename_i hid
    have hlooked := h.ask before hid
    split
    · rename_i htable
      exact (h.ask hlooked htable).mono (Nat.le_succ n)
    rename_i htable
    have hfetched := h.ask hlooked htable
    split
    · exact ih hfetched
    dsimp only
    split
    · rename_i hrecord
      exact h.ask hfetched hrecord
    · rename_i hrecord
      exact h.ask hfetched hrecord

/-- A reader asks for one record at most, and for none if it finds none. -/
theorem next_asks (h : session.Notes U) (r : Reader) (before : Asking U n s t) :
    Asking U (n + asked (next session r t).1) s (next session r t).2.2 := by
  unfold next
  split
  · exact before
  split
  · dsimp only
    split
    · rename_i hrecord
      exact h.ask before hrecord
    · rename_i hrecord
      exact h.ask before hrecord
  · exact advance_asks h _ before

end Reader

namespace Writer

variable {w w' : Writer} {name : String} {answer : Except Error Target}

theorem reach_asks (h : session.Notes U) (before : Asking U n s t)
    (hrun : w.reach session name t = (answer, w', t')) : Asking U n s t' := by
  unfold reach at hrun
  split at hrun
  · cases hrun
    exact before
  split at hrun
  · rename_i hid
    cases hrun
    exact h.ask before hid
  rename_i hid
  have hlooked := h.ask before hid
  split at hrun
  · split at hrun
    · rename_i hclear
      cases hrun
      exact h.ask hlooked hclear
    · rename_i hclear
      cases hrun
      exact h.ask hlooked hclear
  · split at hrun
    · rename_i htable
      cases hrun
      exact h.ask hlooked htable
    · rename_i htable
      cases hrun
      exact h.ask hlooked htable

theorem freshTarget_asks (h : session.Notes U) (before : Asking U n s t)
    (hrun : w.freshTarget session name t = (answer, w', t')) : Asking U n s t' := by
  unfold freshTarget at hrun
  split at hrun
  · rename_i hreach
    cases hrun
    exact reach_asks h before hreach
  rename_i hreach
  have hreached := reach_asks h before hreach
  split at hrun
  · split at hrun
    · rename_i htable
      cases hrun
      exact h.ask hreached htable
    · rename_i htable
      cases hrun
      exact h.ask hreached htable
  · cases hrun
    exact hreached

theorem afterMutation_state (w : Writer) (result : Except Error Unit × σ) :
    (w.afterMutation result).2.2 = result.2 := by
  obtain ⟨_ | _, t⟩ := result
  · rfl
  · rfl

/-- A writer asks for no record. -/
theorem put_asks (h : session.Notes U) (w : Writer) (r : Record) (before : Asking U n s t) :
    Asking U n s (w.put session r t).2.2 := by
  unfold put
  split
  · rename_i hreach
    exact freshTarget_asks h before hreach
  rename_i hreach
  have hreached := freshTarget_asks h before hreach
  split
  · exact hreached
  · rw [afterMutation_state]
    exact h.ask (c := .writeRecord _ _ r) hreached rfl
  · dsimp only
    rw [afterMutation_state]
    exact h.ask (c := .addRecord _ _) hreached rfl
  · dsimp only
    rw [afterMutation_state]
    exact h.ask (c := .addRecord _ r) hreached rfl

end Writer

end notes

/-! ## On a bus -/

namespace Bus

variable {bus bus' bus'' : Bus} {id : ConnectionId} {n m : Nat}

/-- On the way of the bus from one state to another, no device was asked for more than so many
records. -/
def Asks (n : Nat) (bus bus' : Bus) : Prop :=
  ∃ news, Hears news bus bus' ∧ ∀ k, (news k).countP Exchange.asks ≤ n

theorem asks_of_unheard (h : Hears (fun _ => []) bus bus') : Asks 0 bus bus' :=
  ⟨_, h, fun _ => Nat.le_refl 0⟩

theorem Asks.trans (h : Asks n bus bus') (h' : Asks m bus' bus'') : Asks (n + m) bus bus'' := by
  obtain ⟨news, hnews, hcount⟩ := h
  obtain ⟨more, hmore, hcount'⟩ := h'
  refine ⟨_, hnews.trans hmore, fun k => ?_⟩
  rw [List.countP_append, Nat.add_comm n]
  exact Nat.add_le_add (hcount' k) (hcount k)

/-- What is asked over one connection is asked of one device. -/
theorem asks_of_asking (h : Asking (Talks id) n bus bus') : Asks n bus bus' := by
  obtain ⟨said, htalks, hcount⟩ := h
  refine ⟨_, htalks.hears, fun k => ?_⟩
  unfold newsAt
  split
  · exact hcount
  · exact Nat.zero_le n

theorem asking_self (id : ConnectionId) (bus : Bus) : Asking (Talks id) 0 bus bus :=
  ⟨[], talks_self id bus, Nat.le_refl 0⟩

end Bus

end Palmtop.Device
