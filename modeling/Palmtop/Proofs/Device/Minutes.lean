import Palmtop.Proofs.Device.Embedding

/-! # Minutes

A transcript says of a command whether it was accepted.  Where it matters what was answered, a
session is `minuted`: it keeps every command with its answer, the latest last.
-/
namespace Palmtop.Device

variable {σ : Type}

/-- A command and its answer. -/
structure Interaction where
  command : Command
  answer : Except Error command.Answer

/-- The session that also keeps what was said. -/
def Session.minuted (session : Session σ) : Session (σ × List Interaction) where
  run c s :=
    let (answer, after) := session.run c s.1
    (answer, after, s.2 ++ [⟨c, answer⟩])

/-- Keeping the minutes changes nothing. -/
theorem Session.minuted_embeds (session : Session σ) : session.minuted.Embeds session Prod.fst :=
  ⟨fun _ _ => rfl⟩

/-- One command more in the minutes. -/
theorem Session.run_minuted {session : Session σ} {c : Command} {answer : Except Error c.Answer}
    {s s' : σ} (h : session.run c s = (answer, s')) (past : List Interaction) :
    session.minuted.run c (s, past) = (answer, s', past ++ [⟨c, answer⟩]) := by
  simp only [minuted, h]

end Palmtop.Device
