import Palmtop.Proofs.Migration.Course

/-! # A worker that is answered

A worker asks, and somebody answers one question after the other.  The replies are given beforehand,
as far as they go; who moves when is left to a schedule.  Worker and answerer never get in each
other's way: while a question is open only the answerer can change anything, and at any other time
only the worker can.  So it is one course of things that every schedule runs through, fast or slowly
(`Interview.Comes.reached`), as long as both move again and again.
-/
namespace Palmtop.Migration

/-- Who moves next. -/
inductive Party where
  | worker
  | answerer
  deriving DecidableEq

/-- Both move again and again. -/
def Alternating (schedule : Nat → Party) : Prop := ∀ party n, ∃ k, n ≤ k ∧ schedule k = party

/-- Worker and answerer by turns. -/
def inTurn (n : Nat) : Party := if n % 2 = 0 then .worker else .answerer

theorem alternating_inTurn : Alternating inTurn := by
  intro party n
  cases party with
  | worker => exact ⟨2 * n, by omega, by simp [inTurn]⟩
  | answerer => exact ⟨2 * n + 1, by omega, by simp [inTurn]⟩

/-- Whether a question is open to be answered. -/
def Run.isAsking (r : Run) : Bool :=
  match r.stage with
  | .awaitingPassword _ gate => gate.answering
  | .awaitingDestination gate => gate.answering
  | _ => false

/-- A run and how many of its questions were answered. -/
structure Interview where
  run : Run
  answered : Nat := 0

namespace Interview

/-- One move.  The answerer gives the next reply, if there is one and a question is open. -/
def move (replies : Nat → Option Reply) (w : Interview) : Party → Interview
  | .worker => { w with run := w.run.step }
  | .answerer =>
    match replies w.answered with
    | some reply =>
      if w.run.isAsking then ⟨w.run.receive (some reply), w.answered + 1⟩ else w
    | none => w

/-- The interview after so many moves. -/
def after (replies : Nat → Option Reply) (schedule : Nat → Party) (w : Interview) :
    Nat → Interview
  | 0 => w
  | n + 1 => (after replies schedule w n).move replies (schedule n)

/-- It comes to this, one move after the other, each of which only one of the two can make. -/
inductive Comes (replies : Nat → Option Reply) (w' : Interview) : Interview → Prop where
  | here : Comes replies w' w'
  | works {w w₁ : Interview} (work : w.move replies .worker = w₁)
      (idle : w.move replies .answerer = w) (rest : Comes replies w' w₁) : Comes replies w' w
  | answers {w w₁ : Interview} (answer : w.move replies .answerer = w₁)
      (waits : w.move replies .worker = w) (rest : Comes replies w' w₁) : Comes replies w' w

variable {replies : Nat → Option Reply} {schedule : Nat → Party} {w w₁ w' : Interview}
  {f : Nat → Interview}

/-- Where one of the two changes nothing, nothing changes until the other moves. -/
theorem exists_moved (next : ∀ n, f (n + 1) = (f n).move replies (schedule n)) {n k : Nat}
    (hle : n ≤ k) {party : Party} (hk : schedule k = party)
    (still : ∀ other, other ≠ party → (f n).move replies other = f n) :
    ∃ m, n ≤ m ∧ f (m + 1) = (f n).move replies party := by
  induction hd : k - n generalizing n with
  | zero =>
    obtain rfl : n = k := by omega
    exact ⟨n, Nat.le_refl n, by rw [next, hk]⟩
  | succ d ih =>
    by_cases hn : schedule n = party
    · exact ⟨n, Nat.le_refl n, by rw [next, hn]⟩
    · have hsame : f (n + 1) = f n := by rw [next, still _ hn]
      obtain ⟨m, hm, hmoved⟩ := ih (n := n + 1) (by omega) (by rwa [hsame]) (by omega)
      exact ⟨m, by omega, by rw [hmoved, hsame]⟩

/-- Whoever moves when, it comes to what it comes to. -/
theorem Comes.reached_of (h : Comes replies w' w) (fair : Alternating schedule)
    (next : ∀ n, f (n + 1) = (f n).move replies (schedule n)) {n : Nat} (hn : f n = w) :
    ∃ N, f N = w' := by
  induction h generalizing n with
  | here => exact ⟨n, hn⟩
  | works hwork hidle _ ih =>
    obtain ⟨k, hle, hk⟩ := fair .worker n
    obtain ⟨m, -, hmoved⟩ := exists_moved next hle hk fun other hother => by
      cases other with
      | worker => exact absurd rfl hother
      | answerer => rw [hn, hidle]
    exact ih (hmoved.trans (hn ▸ hwork))
  | answers hanswer hwaits _ ih =>
    obtain ⟨k, hle, hk⟩ := fair .answerer n
    obtain ⟨m, -, hmoved⟩ := exists_moved next hle hk fun other hother => by
      cases other with
      | worker => rw [hn, hwaits]
      | answerer => exact absurd rfl hother
    exact ih (hmoved.trans (hn ▸ hanswer))

theorem Comes.reached (h : Comes replies w' w) (fair : Alternating schedule) :
    ∃ N, w.after replies schedule N = w' :=
  h.reached_of (f := w.after replies schedule) (n := 0) fair (fun _ => rfl) rfl

/-! ## The moves of a worker -/

variable {r r₁ : Run} {m : Nat}

/-- A step of a worker that asks nothing. -/
theorem Comes.of_step (h : Comes replies w' ⟨r₁, m⟩) (hstep : r.step = r₁)
    (hasks : r.isAsking = false) : Comes replies w' ⟨r, m⟩ := by
  have hwork : move replies ⟨r, m⟩ .worker = ⟨r₁, m⟩ := by rw [move, hstep]
  refine .works hwork ?_ h
  simp only [move, hasks]
  split <;> rfl

/-- A question is answered, and the worker goes on with the answer. -/
theorem Comes.of_reply {reply : Reply} (hreply : replies m = some reply)
    (hasks : r.isAsking = true) (hwaits : r.step = r)
    (h : Comes replies w' ⟨r.receive (some reply), m + 1⟩) : Comes replies w' ⟨r, m⟩ := by
  refine .answers ?_ (by rw [move, hwaits]) h
  simp only [move, hreply, hasks, if_true]

/-- Nobody has cancelled. -/
theorem Comes.of_checking {task : Task} (hc : r.cancelled = false)
    (h : Comes replies w' ⟨r.goTo (.working task), m⟩) :
    Comes replies w' ⟨r.goTo (.checking task), m⟩ :=
  h.of_step (if_neg (by simp [Run.goTo, hc])) rfl

end Interview

end Palmtop.Migration
