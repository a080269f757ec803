import Mathlib.Data.List.Chain
import Palmtop.Proofs.Transfer

/-! # Exact delivery

A transfer returns what became of it, but not in which order its two ends were called.  `Line` puts
both ends on one world, over which the same loop runs; with a producer and a consumer side by side
it is `transferAll` (`Line.transferAll_sideBySide`), and a line that is `recorded` does the same and
keeps every call with its answer (`Line.transferAll_recorded`).

The calls of one run of transfers go round by round (`Course`): look for the end, ask for a record,
put it.  Whoever calls `transferAll` again and again, whatever came of it, gets one answer of the
producer after the other, none twice, and each record handed out is put once (`transferAll_exact`).
-/
namespace Palmtop

variable {ω σ τ ε δ : Type}

/-! ## Both ends on one world -/

/-- The two ends of a transfer on one world, in states `ω`. -/
structure Line (ω ε δ : Type) where
  ended : ω → Bool × ω
  next : ω → Except ε (Option Record) × ω
  put : Record → ω → Except δ Unit × ω

/-- A call to one of the ends, and its answer. -/
inductive Call (ε δ : Type) where
  | ended (answer : Bool)
  | next (answer : Except ε (Option Record))
  | put (record : Record) (answer : Except δ Unit)

namespace Line

/-- Moves one record. -/
def transfer (line : Line ω ε δ) (w : ω) : Except (TransferError ε δ) Bool × ω :=
  match line.next w with
  | (.error e, w) => (.error (.read e), w)
  | (.ok none, w) => (.ok false, w)
  | (.ok (some record), w) =>
    match line.put record w with
    | (.error e, w) => (.error (.write record.database record.uniqueId e), w)
    | (.ok (), w) => (.ok true, w)

/-- Transfers until the producer reports its end, `delivered` records having been moved before. -/
def transferAllFrom (line : Line ω ε δ) : Nat → Nat → ω → TransferEnd ε δ × ω
  | limit, delivered, w =>
    match line.ended w with
    | (true, w) => (.delivered delivered, w)
    | (false, w) => match limit with
      | 0 => (.unfinished, w)
      | limit + 1 =>
        match line.transfer w with
        | (.error e, w) => (.failed e, w)
        | (.ok moved, w) =>
          transferAllFrom line limit (if moved then delivered + 1 else delivered) w

/-- Transfers until the producer reports its end, counting the records delivered. -/
def transferAll (line : Line ω ε δ) (limit : Nat) (w : ω) : TransferEnd ε δ × ω :=
  line.transferAllFrom limit 0 w

/-- A producer and a consumer that know nothing of each other. -/
def sideBySide (source : Producer σ ε) (sink : Consumer τ δ) : Line (σ × τ) ε δ where
  ended w := (source.ended w.1, w)
  next w := ((source.next w.1).1, (source.next w.1).2, w.2)
  put r w := ((sink.put r w.2).1, w.1, (sink.put r w.2).2)

/-- The line that also keeps the calls, the latest last. -/
def recorded (line : Line ω ε δ) : Line (ω × List (Call ε δ)) ε δ where
  ended w := ((line.ended w.1).1, (line.ended w.1).2, w.2 ++ [.ended (line.ended w.1).1])
  next w := ((line.next w.1).1, (line.next w.1).2, w.2 ++ [.next (line.next w.1).1])
  put r w := ((line.put r w.1).1, (line.put r w.1).2, w.2 ++ [.put r (line.put r w.1).1])

theorem transfer_sideBySide (source : Producer σ ε) (sink : Consumer τ δ) (s : σ) (t : τ) :
    (sideBySide source sink).transfer (s, t) = Palmtop.transfer source sink s t := by
  simp only [transfer, Palmtop.transfer, sideBySide]
  rcases source.next s with ⟨e | _ | r, s'⟩
  · rfl
  · rfl
  · dsimp only
    rcases sink.put r t with ⟨e | _, t'⟩
    · rfl
    · rfl

theorem transferAllFrom_sideBySide (source : Producer σ ε) (sink : Consumer τ δ)
    (limit delivered : Nat) (s : σ) (t : τ) :
    (sideBySide source sink).transferAllFrom limit delivered (s, t)
      = Palmtop.transferAllFrom source sink limit delivered s t := by
  induction limit generalizing delivered s t with
  | zero =>
    unfold transferAllFrom Palmtop.transferAllFrom
    simp only [sideBySide]
    cases source.ended s with
    | false => rfl
    | true => rfl
  | succ limit ih =>
    unfold transferAllFrom Palmtop.transferAllFrom
    have hended : (sideBySide source sink).ended (s, t) = (source.ended s, (s, t)) := rfl
    rw [hended]
    cases source.ended s with
    | true => rfl
    | false =>
      simp only [Bool.false_eq_true, if_false, transfer_sideBySide]
      generalize Palmtop.transfer source sink s t = moves
      obtain ⟨e | moved, s', t'⟩ := moves
      · rfl
      · exact ih _ s' t'

/-- Over a producer and a consumer side by side, the loop is the transfer between them. -/
theorem transferAll_sideBySide (source : Producer σ ε) (sink : Consumer τ δ) (limit : Nat) (s : σ)
    (t : τ) : (sideBySide source sink).transferAll limit (s, t)
      = Palmtop.transferAll source sink limit s t :=
  transferAllFrom_sideBySide source sink limit 0 s t

theorem transfer_recorded (line : Line ω ε δ) (w : ω) (calls : List (Call ε δ)) :
    (line.recorded.transfer (w, calls)).map id Prod.fst = line.transfer w := by
  simp only [transfer, recorded]
  rcases line.next w with ⟨e | _ | r, w'⟩
  · rfl
  · rfl
  · dsimp only
    rcases line.put r w' with ⟨e | _, w''⟩
    · rfl
    · rfl

theorem transferAllFrom_recorded (line : Line ω ε δ) (limit delivered : Nat) (w : ω)
    (calls : List (Call ε δ)) :
    (line.recorded.transferAllFrom limit delivered (w, calls)).map id Prod.fst
      = line.transferAllFrom limit delivered w := by
  induction limit generalizing delivered w calls with
  | zero =>
    unfold transferAllFrom
    simp only [recorded]
    rcases line.ended w with ⟨_ | _, w'⟩
    · rfl
    · rfl
  | succ limit ih =>
    unfold transferAllFrom
    have hended : line.recorded.ended (w, calls)
      = ((line.ended w).1, (line.ended w).2, calls ++ [.ended (line.ended w).1]) := rfl
    rw [hended]
    rcases line.ended w with ⟨_ | _, w'⟩
    · dsimp only
      rw [← transfer_recorded line w' (calls ++ [.ended false])]
      generalize line.recorded.transfer (w', calls ++ [.ended false]) = moves
      obtain ⟨e | moved, w'', calls'⟩ := moves
      · rfl
      · exact ih _ w'' calls'
    · rfl

/-- Keeping the calls changes nothing. -/
theorem transferAll_recorded (line : Line ω ε δ) (limit : Nat) (w : ω) (calls : List (Call ε δ)) :
    (line.recorded.transferAll limit (w, calls)).map id Prod.fst = line.transferAll limit w :=
  transferAllFrom_recorded line limit 0 w calls

end Line

/-! ## What the calls come to -/

namespace Call

/-- What the producer answered when it was asked for the next record. -/
def answer? : Call ε δ → Option (Except ε (Option Record))
  | .next answer => some answer
  | _ => none

/-- The record that was handed out. -/
def handedOut? : Call ε δ → Option Record
  | .next (.ok (some r)) => some r
  | _ => none

/-- The record that was put. -/
def put? : Call ε δ → Option Record
  | .put r _ => some r
  | _ => none

/-- What the consumer answered when it was put a record. -/
def reply? : Call ε δ → Option (Except δ Unit)
  | .put _ reply => some reply
  | _ => none

/-- The record that was put and taken. -/
def taken? : Call ε δ → Option Record
  | .put r (.ok ()) => some r
  | _ => none

/-- What may be called next.  Behind the end, an error or a refusal nothing is. -/
inductive Leads : Call ε δ → Call ε δ → Prop where
  /-- The producer is asked for a record if it has just said that it goes on. -/
  | asks (answer : Except ε (Option Record)) : Leads (.ended false) (.next answer)
  | finds (ends : Bool) : Leads (.next (.ok none)) (.ended ends)
  /-- A record is put as soon as it was handed out, and nothing else is put. -/
  | puts (r : Record) (answer : Except δ Unit) : Leads (.next (.ok (some r))) (.put r answer)
  | taken (r : Record) (ends : Bool) : Leads (.put r (.ok ())) (.ended ends)

end Call

/-- What the calls of a run of transfers come to that ended so. -/
def TransferEnd.Fits (calls : List (Call ε δ)) : TransferEnd ε δ → Prop
  | .delivered n =>
    (∃ before, calls = before ++ [.ended true]) ∧
      calls.filterMap Call.taken? = calls.filterMap Call.handedOut? ∧
      (calls.filterMap Call.handedOut?).length = n
  | .failed (.read e) =>
    (∃ before, calls = before ++ [.next (.error e)]) ∧
      calls.filterMap Call.taken? = calls.filterMap Call.handedOut?
  | .failed (.write database uniqueId e) =>
    ∃ before r, calls = before ++ [.next (.ok (some r)), .put r (.error e)] ∧
      r.database = database ∧ r.uniqueId = uniqueId ∧
      before.filterMap Call.taken? = before.filterMap Call.handedOut?
  | .unfinished => calls.filterMap Call.taken? = calls.filterMap Call.handedOut?

/-- The end of a run of transfers of which some were made before. -/
def TransferEnd.after (delivered : Nat) : TransferEnd ε δ → TransferEnd ε δ
  | .delivered n => .delivered (delivered + n)
  | .failed e => .failed e
  | .unfinished => .unfinished

/-- The calls of a run of transfers, round by round, how it ends, and where it leads. -/
inductive Course (source : Producer σ ε) (sink : Consumer τ δ) :
    σ → τ → List (Call ε δ) → TransferEnd ε δ → σ → τ → Prop where
  | ended {s : σ} {t : τ} (ends : source.ended s = true) :
      Course source sink s t [.ended true] (.delivered 0) s t
  | stopped {s : σ} {t : τ} (goes : source.ended s = false) :
      Course source sink s t [.ended false] .unfinished s t
  | failed {s s' : σ} {t : τ} {e : ε} (goes : source.ended s = false)
      (next : source.next s = (.error e, s')) :
      Course source sink s t [.ended false, .next (.error e)] (.failed (.read e)) s' t
  | refused {s s' : σ} {t t' : τ} {r : Record} {e : δ} (goes : source.ended s = false)
      (next : source.next s = (.ok (some r), s')) (put : sink.put r t = (.error e, t')) :
      Course source sink s t [.ended false, .next (.ok (some r)), .put r (.error e)]
        (.failed (.write r.database r.uniqueId e)) s' t'
  | passed {s s' s'' : σ} {t t'' : τ} {calls : List (Call ε δ)} {outcome : TransferEnd ε δ}
      (goes : source.ended s = false) (next : source.next s = (.ok none, s'))
      (rest : Course source sink s' t calls outcome s'' t'') :
      Course source sink s t (.ended false :: .next (.ok none) :: calls) outcome s'' t''
  | moved {s s' s'' : σ} {t t' t'' : τ} {r : Record} {calls : List (Call ε δ)}
      {outcome : TransferEnd ε δ} (goes : source.ended s = false)
      (next : source.next s = (.ok (some r), s')) (put : sink.put r t = (.ok (), t'))
      (rest : Course source sink s' t' calls outcome s'' t'') :
      Course source sink s t (.ended false :: .next (.ok (some r)) :: .put r (.ok ()) :: calls)
        (outcome.after 1) s'' t''

namespace Course

variable {source : Producer σ ε} {sink : Consumer τ δ} {s s' : σ} {t t' : τ}
  {calls : List (Call ε δ)} {outcome : TransferEnd ε δ}

/-- The loop goes through such a course, and keeps its calls behind those kept before. -/
theorem of_transferAllFrom (source : Producer σ ε) (sink : Consumer τ δ) (limit delivered : Nat)
    (s : σ) (t : τ) (past : List (Call ε δ)) : ∃ calls outcome s' t',
    Course source sink s t calls outcome s' t' ∧
      (Line.sideBySide source sink).recorded.transferAllFrom limit delivered ((s, t), past)
        = (outcome.after delivered, (s', t'), past ++ calls) := by
  induction limit generalizing delivered s t past with
  | zero =>
    unfold Line.transferAllFrom
    simp only [Line.recorded, Line.sideBySide]
    cases hended : source.ended s with
    | true => exact ⟨_, _, _, _, .ended hended, rfl⟩
    | false => exact ⟨_, _, _, _, .stopped hended, rfl⟩
  | succ limit ih =>
    unfold Line.transferAllFrom
    cases hended : source.ended s with
    | true =>
      simp only [Line.recorded, Line.sideBySide, hended]
      exact ⟨_, _, _, _, .ended hended, rfl⟩
    | false =>
      have hlooked : (Line.sideBySide source sink).recorded.ended ((s, t), past)
          = (false, (s, t), past ++ [.ended false]) := by
        simp only [Line.recorded, Line.sideBySide, hended]
      rw [hlooked]
      simp only [Line.transfer, Line.recorded, Line.sideBySide]
      rcases hnext : source.next s with ⟨e | _ | r, s₁⟩
      · exact ⟨_, _, _, _, .failed hended hnext, by simp [TransferEnd.after]⟩
      · obtain ⟨calls, outcome, s', t', hcourse, hrun⟩ :=
          ih delivered s₁ t (past ++ [.ended false] ++ [.next (.ok none)])
        refine ⟨_, _, _, _, .passed hended hnext hcourse, hrun.trans ?_⟩
        simp
      · dsimp only
        rcases hput : sink.put r t with ⟨e | _, t₁⟩
        · exact ⟨_, _, _, _, .refused hended hnext hput, by simp [TransferEnd.after]⟩
        · obtain ⟨calls, outcome, s', t', hcourse, hrun⟩ := ih (delivered + 1) s₁ t₁
            (past ++ [.ended false] ++ [.next (.ok (some r))] ++ [.put r (.ok ())])
          refine ⟨_, _, _, _, .moved hended hnext hput hcourse, hrun.trans ?_⟩
          cases outcome with
          | delivered n => simp [TransferEnd.after, Nat.add_assoc]
          | failed e => simp [TransferEnd.after]
          | unfinished => simp [TransferEnd.after]

/-- The first thing is to look for the end. -/
theorem starts (h : Course source sink s t calls outcome s' t') :
    ∃ ends rest, calls = .ended ends :: rest := by
  cases h with
  | _ => exact ⟨_, _, rfl⟩

theorem isChain (h : Course source sink s t calls outcome s' t') :
    calls.IsChain Call.Leads := by
  induction h with
  | ended | stopped => exact .singleton _
  | failed => exact .cons_cons (.asks _) (.singleton _)
  | refused => exact .cons_cons (.asks _) (.cons_cons (.puts _ _) (.singleton _))
  | passed _ _ rest ih =>
    obtain ⟨ends, later, rfl⟩ := rest.starts
    exact .cons_cons (.asks _) (.cons_cons (.finds _) ih)
  | moved _ _ _ rest ih =>
    obtain ⟨ends, later, rfl⟩ := rest.starts
    exact .cons_cons (.asks _) (.cons_cons (.puts _ _) (.cons_cons (.taken _ _) ih))

/-- Behind a round in which nothing went wrong, a run ends as it would have without it. -/
theorem fits_passed (h : outcome.Fits calls) :
    outcome.Fits (.ended false :: .next (.ok none) :: calls) := by
  cases outcome with
  | delivered n =>
    obtain ⟨⟨before, rfl⟩, htaken, hcount⟩ := h
    exact ⟨⟨.ended false :: .next (.ok none) :: before, rfl⟩, htaken, hcount⟩
  | unfinished => exact h
  | failed e =>
    cases e with
    | read e =>
      obtain ⟨⟨before, rfl⟩, htaken⟩ := h
      exact ⟨⟨.ended false :: .next (.ok none) :: before, rfl⟩, htaken⟩
    | write database uniqueId e =>
      obtain ⟨before, r, rfl, hdatabase, hid, htaken⟩ := h
      exact ⟨.ended false :: .next (.ok none) :: before, r, rfl, hdatabase, hid, htaken⟩

theorem fits_moved (r : Record) (h : outcome.Fits calls) : (outcome.after 1).Fits
    (.ended false :: .next (.ok (some r)) :: .put r (.ok ()) :: calls) := by
  cases outcome with
  | delivered n =>
    obtain ⟨⟨before, rfl⟩, htaken, hcount⟩ := h
    refine ⟨⟨.ended false :: .next (.ok (some r)) :: .put r (.ok ()) :: before, rfl⟩,
      congrArg (r :: ·) htaken, ?_⟩
    rw [Nat.add_comm]
    exact congrArg (· + 1) hcount
  | unfinished => exact congrArg (r :: ·) h
  | failed e =>
    cases e with
    | read e =>
      obtain ⟨⟨before, rfl⟩, htaken⟩ := h
      exact ⟨⟨.ended false :: .next (.ok (some r)) :: .put r (.ok ()) :: before, rfl⟩,
        congrArg (r :: ·) htaken⟩
    | write database uniqueId e =>
      obtain ⟨before, last, rfl, hdatabase, hid, htaken⟩ := h
      exact ⟨.ended false :: .next (.ok (some r)) :: .put r (.ok ()) :: before, last, rfl,
        hdatabase, hid, congrArg (r :: ·) htaken⟩

theorem fits (h : Course source sink s t calls outcome s' t') : outcome.Fits calls := by
  induction h with
  | ended => exact ⟨⟨[], rfl⟩, rfl, rfl⟩
  | stopped => rfl
  | failed => exact ⟨⟨[.ended false], rfl⟩, rfl⟩
  | @refused _ _ _ _ r => exact ⟨[.ended false], r, rfl, rfl, rfl, rfl⟩
  | passed _ _ _ ih => exact fits_passed ih
  | @moved _ _ _ _ _ _ r _ _ _ _ _ _ ih => exact fits_moved r ih

/-- Each record that is handed out is put, once and in its turn. -/
theorem put_eq (h : Course source sink s t calls outcome s' t') :
    calls.filterMap Call.put? = calls.filterMap Call.handedOut? := by
  induction h with
  | ended | stopped | failed | refused => rfl
  | passed _ _ _ ih => exact ih
  | moved _ _ _ _ ih => exact congrArg (_ :: ·) ih

theorem ended_of_delivered (h : Course source sink s t calls outcome s' t') {n : Nat}
    (hn : outcome = .delivered n) : source.ended s' = true := by
  induction h generalizing n with
  | ended ends => exact ends
  | stopped | failed | refused => cases hn
  | passed _ _ _ ih => exact ih hn
  | @moved _ _ _ _ _ _ _ _ outcome _ _ _ _ ih =>
    cases outcome with
    | delivered => exact ih rfl
    | failed | unfinished => cases hn

end Course

/-! ## One run after the other -/

/-- The answers to so many calls for the next record, one after the other, and the state behind
them. -/
def Producer.asked (source : Producer σ ε) : Nat → σ → List (Except ε (Option Record)) × σ
  | 0, s => ([], s)
  | n + 1, s =>
    let (answer, s) := source.next s
    let (answers, s) := asked source n s
    (answer :: answers, s)

theorem Producer.asked_cons {source : Producer σ ε} {s u v : σ} {n : Nat}
    {answer : Except ε (Option Record)} {answers : List (Except ε (Option Record))}
    (h : source.next s = (answer, u)) (rest : source.asked n u = (answers, v)) :
    source.asked (n + 1) s = (answer :: answers, v) := by
  simp only [asked, h, rest]

theorem Producer.asked_append {source : Producer σ ε} {s u v : σ}
    {as bs : List (Except ε (Option Record))} (h : source.asked as.length s = (as, u))
    (rest : source.asked bs.length u = (bs, v)) :
    source.asked (as ++ bs).length s = (as ++ bs, v) := by
  induction as generalizing s with
  | nil =>
    obtain rfl := congrArg Prod.snd h
    exact rest
  | cons a as ih =>
    obtain ⟨hanswers, hu⟩ := Prod.mk.inj h
    obtain ⟨ha, has⟩ := List.cons.inj hanswers
    exact Producer.asked_cons (Prod.ext ha rfl) (ih (Prod.ext has hu))

theorem Consumer.putAll_cons {sink : Consumer τ δ} {r : Record} {rs : List Record} {t u v : τ}
    {reply : Except δ Unit} {replies : List (Except δ Unit)} (h : sink.put r t = (reply, u))
    (rest : sink.putAll rs u = (replies, v)) : sink.putAll (r :: rs) t = (reply :: replies, v) := by
  simp only [putAll, h, rest]

theorem Consumer.putAll_append {sink : Consumer τ δ} {rs rs' : List Record} {t u v : τ}
    {as bs : List (Except δ Unit)} (h : sink.putAll rs t = (as, u))
    (rest : sink.putAll rs' u = (bs, v)) : sink.putAll (rs ++ rs') t = (as ++ bs, v) := by
  induction rs generalizing t as with
  | nil =>
    obtain ⟨rfl, rfl⟩ := Prod.mk.inj h
    exact rest
  | cons r rs ih =>
    obtain ⟨rfl, hu⟩ := Prod.mk.inj h
    exact Consumer.putAll_cons rfl (ih (Prod.ext rfl hu))

namespace Course

variable {source : Producer σ ε} {sink : Consumer τ δ} {s s' : σ} {t t' : τ}
  {calls : List (Call ε δ)} {outcome : TransferEnd ε δ}

/-- The producer is asked for nothing but what the calls say. -/
theorem asked (h : Course source sink s t calls outcome s' t') :
    source.asked (calls.filterMap Call.answer?).length s = (calls.filterMap Call.answer?, s') := by
  induction h with
  | ended | stopped => rfl
  | failed _ next | refused _ next => exact Producer.asked_cons next rfl
  | passed _ next _ ih | moved _ next _ _ ih => exact Producer.asked_cons next ih

/-- The consumer is put nothing else. -/
theorem putAll (h : Course source sink s t calls outcome s' t') :
    sink.putAll (calls.filterMap Call.put?) t = (calls.filterMap Call.reply?, t') := by
  induction h with
  | ended | stopped | failed => rfl
  | refused _ _ put => exact Consumer.putAll_cons put rfl
  | passed _ _ _ ih => exact ih
  | moved _ _ put _ ih => exact Consumer.putAll_cons put ih

end Course

/-- The calls that `transferAll` makes, as the recorded line keeps them. -/
def transcript (source : Producer σ ε) (sink : Consumer τ δ) (limit : Nat) (s : σ) (t : τ) :
    List (Call ε δ) :=
  ((Line.sideBySide source sink).recorded.transferAll limit ((s, t), [])).2.2

/-- A run of transfers: how it ended, its calls, and what it left behind. -/
structure Bout (σ τ ε δ : Type) where
  outcome : TransferEnd ε δ
  calls : List (Call ε δ)
  source : σ
  sink : τ

/-- Transfers again and again, each time up to one of these limits, whatever came of it before. -/
def bouts (source : Producer σ ε) (sink : Consumer τ δ) : List Nat → σ → τ → List (Bout σ τ ε δ)
  | [], _, _ => []
  | limit :: limits, s, t =>
    let (outcome, s', t') := transferAll source sink limit s t
    ⟨outcome, transcript source sink limit s t, s', t'⟩ :: bouts source sink limits s' t'

/-- What a run of transfers has to do with its calls. -/
structure Bout.Exact (source : Producer σ ε) (b : Bout σ τ ε δ) : Prop where
  starts : ∃ ends rest, b.calls = .ended ends :: rest
  order : b.calls.IsChain Call.Leads
  /-- What is put is what was handed out. -/
  put : b.calls.filterMap Call.put? = b.calls.filterMap Call.handedOut?
  outcome : b.outcome.Fits b.calls
  ended : ∀ n, b.outcome = .delivered n → source.ended b.source = true

/-- The calls of `transferAll` are a course to its end. -/
theorem course_transferAll (source : Producer σ ε) (sink : Consumer τ δ) (limit : Nat) (s : σ)
    (t : τ) : Course source sink s t (transcript source sink limit s t)
      (transferAll source sink limit s t).1 (transferAll source sink limit s t).2.1
      (transferAll source sink limit s t).2.2 := by
  obtain ⟨calls, outcome, s', t', hcourse, hrun⟩ :=
    Course.of_transferAllFrom source sink limit 0 s t []
  have hplain := Line.transferAll_recorded (Line.sideBySide source sink) limit (s, t) []
  have hzero : outcome.after 0 = outcome := by
    cases outcome with
    | delivered n => exact congrArg _ (Nat.zero_add n)
    | failed | unfinished => rfl
  rw [Line.transferAll_sideBySide, Line.transferAll, hrun, hzero] at hplain
  rw [transcript, Line.transferAll, hrun, ← hplain]
  exact hcourse

section bouts
variable (source : Producer σ ε) (sink : Consumer τ δ)

theorem exact_of_mem_bouts {limits : List Nat} {s : σ} {t : τ} {b : Bout σ τ ε δ}
    (h : b ∈ bouts source sink limits s t) : b.Exact source := by
  induction limits generalizing s t with
  | nil => cases h
  | cons limit limits ih =>
    rcases List.mem_cons.mp h with rfl | h
    · have hcourse := course_transferAll source sink limit s t
      exact ⟨hcourse.starts, hcourse.isChain, hcourse.put_eq, hcourse.fits,
        fun _ => hcourse.ended_of_delivered⟩
    · exact ih h

/-- The runs go on where the last one stopped, with the producer and with the consumer. -/
theorem bouts_continue (limits : List Nat) (s : σ) (t : τ) :
    let calls := (bouts source sink limits s t).flatMap (·.calls)
    (∃ s', source.asked (calls.filterMap Call.answer?).length s
      = (calls.filterMap Call.answer?, s')) ∧
    ∃ t', sink.putAll (calls.filterMap Call.put?) t = (calls.filterMap Call.reply?, t') := by
  induction limits generalizing s t with
  | nil => exact ⟨⟨s, rfl⟩, t, rfl⟩
  | cons limit limits ih =>
    have hcourse := course_transferAll source sink limit s t
    obtain ⟨⟨s', hasked⟩, t', hput⟩ := ih (transferAll source sink limit s t).2.1
      (transferAll source sink limit s t).2.2
    simp only [bouts, List.flatMap_cons, List.filterMap_append]
    exact ⟨⟨s', Producer.asked_append hcourse.asked hasked⟩, t',
      Consumer.putAll_append hcourse.putAll hput⟩

theorem put_eq_handedOut {runs : List (Bout σ τ ε δ)} (h : ∀ b ∈ runs, b.Exact source) :
    (runs.flatMap (·.calls)).filterMap Call.put?
      = (runs.flatMap (·.calls)).filterMap Call.handedOut? := by
  induction runs with
  | nil => rfl
  | cons b runs ih =>
    obtain ⟨hb, hruns⟩ := List.forall_mem_cons.mp h
    rw [List.flatMap_cons, List.filterMap_append, List.filterMap_append, hb.put, ih hruns]

/-- **Nothing is lost, doubled or put out of turn**, whatever the two ends are.  A line that records
its calls does what `transferAll` does.  Each run of transfers makes its calls in order, and they
fit how it ended.  Run after run, the producer is asked for one answer after the other, and what it
hands out is put, one record after the other. -/
theorem transferAll_exact (source : Producer σ ε) (sink : Consumer τ δ) (limits : List Nat) (s : σ)
    (t : τ) :
    let runs := bouts source sink limits s t
    let calls := runs.flatMap (·.calls)
    let answers := calls.filterMap Call.answer?
    (∀ limit s t, (Line.sideBySide source sink).recorded.transferAll limit ((s, t), [])
      = ((transferAll source sink limit s t).1, (transferAll source sink limit s t).2,
          transcript source sink limit s t)) ∧
    (∀ b ∈ runs, b.Exact source) ∧
    (source.asked answers.length s).1 = answers ∧
    (sink.putAll (calls.filterMap Call.handedOut?) t).1 = calls.filterMap Call.reply? := by
  intro runs calls answers
  have hexact : ∀ b ∈ runs, b.Exact source := fun b hb => exact_of_mem_bouts source sink hb
  obtain ⟨⟨s', hasked⟩, t', hput⟩ := bouts_continue source sink limits s t
  refine ⟨fun limit s t => ?_, hexact, congrArg Prod.fst hasked, ?_⟩
  · have hplain := Line.transferAll_recorded (Line.sideBySide source sink) limit (s, t) []
    rw [Line.transferAll_sideBySide] at hplain
    rw [← hplain]
    rfl
  · show (sink.putAll ((runs.flatMap (·.calls)).filterMap Call.handedOut?) t).1 = _
    rw [← put_eq_handedOut source hexact]
    exact congrArg Prod.fst hput

end bouts

end Palmtop
