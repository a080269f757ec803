import Palmtop.Proofs.Migration.Course

/-! # Worker and attendant under any schedule

Between two steps of the worker the attendant may deal with any number of events, or with none; what
the worker told earlier may still wait in the queue while it works on, and only a question makes it
wait.  Whatever the order of their moves, worker and attendant come to the same end
(`Dialogue.Heads.completes`), as long as both move again and again and nobody leaves or cancels.
Every move that changes anything lowers a number (`Dialogue.toDo`), and unless the run is over there
is such a move.
-/
namespace Palmtop.Migration

variable {π : Type} {p : Prompter π} {limit : Nat} {world : Device.Bus} {Q : Run → Prop} {k : Nat}
  {q : Question} {qs : List Question}

/-- A move by which nobody leaves or cancels. -/
def Move.IsCalm (m : Move) : Prop := m ≠ .leave ∧ m ≠ .cancel

/-- Nobody leaves or cancels, and every other move comes again and again. -/
structure Fair (schedule : Nat → Move) : Prop where
  calm : ∀ n, (schedule n).IsCalm
  again : ∀ m : Move, m.IsCalm → ∀ n, ∃ k, n ≤ k ∧ schedule k = m

/-- Worker and attendant by turns. -/
def byTurns (n : Nat) : Move :=
  if n % 3 = 0 then .work else if n % 3 = 1 then .take else .settle

theorem fair_byTurns : Fair byTurns where
  calm n := by
    unfold byTurns
    split
    · exact ⟨nofun, nofun⟩
    · split
      · exact ⟨nofun, nofun⟩
      · exact ⟨nofun, nofun⟩
  again m hm n := by
    cases m with
    | work => exact ⟨3 * n, by omega, by simp [byTurns]⟩
    | take => exact ⟨3 * n + 1, by omega, by simp [byTurns]⟩
    | settle => exact ⟨3 * n + 2, by omega, by simp [byTurns]⟩
    | leave => exact absurd rfl hm.1
    | cancel => exact absurd rfl hm.2

namespace Dialogue

/-- The requests that have not been dealt with. -/
def requests (d : Dialogue π) : List Event := (d.handling.toList ++ d.queue).filter (·.isRequest)

/-- The attendant has taken no event that was not posted, and somebody receives them. -/
structure Attended (d : Dialogue π) : Prop where
  listening : d.run.listening = true
  taken : d.taken ≤ d.run.posted.length

/-- The dialogue is on its way: what is left of the run completes in `k` steps, the user gives the
replies it needs, and if the worker waits, its question is the one that has not been dealt with. -/
inductive Heads (p : Prompter π) (limit : Nat) (world : Device.Bus) (Q : Run → Prop) (k : Nat)
    (d : Dialogue π) : Prop where
  | working (qs : List Question) (attended : d.Attended) (none : d.requests = [])
      (gives : p.Gives limit world qs d.user) (course : d.run.Completes world Q k qs)
  | waiting (q : Question) (qs : List Question) (attended : d.Attended) (one : d.requests = [q.1])
      (gives : p.Gives limit world (q :: qs) d.user) (asks : d.run.Asks world q)
      (course : (d.run.receive (some q.2)).Completes world Q k qs)

/-- How much is left to be done, the worker having `k` more steps to make: each of them may post an
event, which is taken and then dealt with. -/
def toDo (k : Nat) (d : Dialogue π) : Nat :=
  4 * k + 2 * d.queue.length + d.handling.toList.length

variable {d : Dialogue π}

theorem Heads.attended (h : d.Heads p limit world Q k) : d.Attended := by
  cases h with
  | working _ ha => exact ha
  | waiting _ _ ha => exact ha

/-- The attendant may have gone on with events that ask nothing. -/
theorem Heads.of_run_eq {d' : Dialogue π} (h : d.Heads p limit world Q k) (attended : d'.Attended)
    (run : d'.run = d.run) (requests : d'.requests = d.requests) (told : p.Told d.user d'.user) :
    d'.Heads p limit world Q k := by
  cases h with
  | working qs _ hnone hgives course =>
    exact .working qs attended (requests.trans hnone) (hgives.told told) (run ▸ course)
  | waiting q qs _ hone hgives asks course =>
    exact .waiting q qs attended (requests.trans hone) (hgives.told told) (run ▸ asks)
      (run ▸ course)

theorem queue_eq (h : d.Attended) : d.queue = d.run.posted.reverse.drop d.taken := by
  rw [queue, h.listening, if_pos rfl]

/-- The worker makes a step and posts an event at most. -/
theorem worked {r : Run} (news : Option Event) (h : d.Attended)
    (posted : r.posted = news.toList ++ d.run.posted) (listening : r.listening = d.run.listening) :
    Attended { d with run := r } ∧
      requests { d with run := r } = d.requests ++ news.toList.filter (·.isRequest) ∧
      ∀ k, toDo k { d with run := r } < toDo (k + 1) d := by
  have hattended : Attended { d with run := r } := by
    refine ⟨listening.trans h.listening, ?_⟩
    rw [posted, List.length_append]
    exact Nat.le_add_left_of_le h.taken
  -- `posted` has the latest event first, the queue has it last
  have hqueue : queue { d with run := r } = d.queue ++ news.toList := by
    rw [queue_eq hattended, queue_eq h, posted, List.reverse_append,
      List.drop_append_of_le_length (by simpa using h.taken)]
    congr 1
    cases news <;> rfl
  refine ⟨hattended, ?_, fun k => ?_⟩
  · rw [requests, requests, hqueue, ← List.append_assoc, List.filter_append]
  · have hnews : news.toList.length ≤ 1 := by cases news <;> simp
    rw [toDo, toDo, hqueue, List.length_append]
    dsimp only
    omega

/-- The attendant deals with the event at hand. -/
theorem settle_eq {e : Event} {reply : Option Reply} {s : π} (hd : d.handling = some e)
    (hreply : reply ≠ some .undecided)
    (h : p.handle limit e d.user d.run.bus = (reply, s, d.run.bus)) :
    d.settle p limit = { d with run := d.run.receive reply, user := s, handling := none } := by
  simp only [settle, hd, h, if_neg hreply]

/-- The attendant takes an event, if there is one to take and it is free. -/
theorem take_cases (h : d.Attended) : d.take = d ∨
    d.take.Attended ∧ d.take.run = d.run ∧ d.take.user = d.user ∧
      d.take.requests = d.requests ∧ ∀ k, toDo k d.take < toDo k d := by
  cases hd : d.handling with
  | some e => exact Or.inl (by simp only [take, hd])
  | none =>
    cases hq : d.queue with
    | nil => exact Or.inl (by simp only [take, hd, hq])
    | cons e rest =>
      refine Or.inr ?_
      have htake : d.take = { d with handling := some e, taken := d.taken + 1 } := by
        simp only [take, hd, hq]
      have hdrop : d.run.posted.reverse.drop d.taken = e :: rest := (queue_eq h).symm.trans hq
      have hlt : d.taken < d.run.posted.length := by
        have := congrArg List.length hdrop
        rw [List.length_drop, List.length_reverse, List.length_cons] at this
        omega
      have hattended : d.take.Attended := by
        rw [htake]
        exact ⟨h.listening, hlt⟩
      have hqueue : d.take.queue = rest := by
        rw [queue_eq hattended, htake]
        exact List.drop_add_one_eq_tail_drop.trans (congrArg List.tail hdrop)
      have hhandling : d.take.handling = some e := by rw [htake]
      refine ⟨hattended, by rw [htake], by rw [htake], ?_, fun k => ?_⟩
      · rw [requests, requests, hqueue, hhandling, hd, hq]
        rfl
      · rw [toDo, toDo, hqueue, hhandling, hd, hq, List.length_cons]
        simp only [Option.toList_some, Option.toList_none, List.length_singleton, List.length_nil]
        omega

/-- Once an event is dealt with, those in the queue are left. -/
theorem settled (h : d.Attended) {e : Event} {reply : Option Reply} {s : π}
    (hd : d.handling = some e) (hreply : reply ≠ some .undecided)
    (hp : p.handle limit e d.user d.run.bus = (reply, s, d.run.bus)) :
    (d.settle p limit).Attended ∧ (d.settle p limit).run = d.run.receive reply ∧
      (d.settle p limit).user = s ∧
      d.requests = (if e.isRequest then [e] else []) ++ (d.settle p limit).requests ∧
      ∀ k, toDo k (d.settle p limit) < toDo k d := by
  rw [settle_eq hd hreply hp]
  have hattended : Attended { d with run := d.run.receive reply, user := s, handling := none } :=
    ⟨by simpa using h.listening, by simpa using h.taken⟩
  have hqueue : queue { d with run := d.run.receive reply, user := s, handling := none }
      = d.queue := by
    rw [queue_eq hattended, queue_eq h]
    simp only [Run.posted_receive]
  refine ⟨hattended, rfl, rfl, ?_, fun k => ?_⟩
  · rw [requests, requests, hqueue, hd]
    by_cases he : e.isRequest = true
    · simp [he]
    · simp [he]
  · rw [toDo, toDo, hqueue, hd]
    simp

/-- Dealing with an event brings the dialogue further. -/
theorem Heads.settle (h : d.Heads p limit world Q k) {e : Event} (hd : d.handling = some e) :
    (d.settle p limit).Heads p limit world Q k ∧ toDo k (d.settle p limit) < toDo k d ∧
      ∃ reply, (d.settle p limit).run = d.run.receive reply := by
  by_cases he : e.isRequest = true
  · -- the request is the one the worker waits for
    cases h with
    | working _ _ hnone => simp [requests, hd, he] at hnone
    | waiting q qs ha hone hgives asks course =>
      have heq : e = q.1 := by
        rw [requests, hd, Option.toList_some, List.singleton_append, List.filter_cons_of_pos he]
          at hone
        exact (List.cons.inj hone).1
      obtain ⟨w, hp, hrest⟩ := hgives d.user (.nothing d.user) d.run.bus asks.world
      obtain ⟨hattended, hrun, huser, hrequests, hless⟩ := settled ha hd
        (fun h => asks.decided (Option.some.inj h)) (heq ▸ hp)
      rw [hone, if_pos he, heq] at hrequests
      exact ⟨.working qs hattended (List.cons.inj hrequests).2.symm (huser ▸ hrest)
        (hrun ▸ course), hless k, _, hrun⟩
  · -- anything else only tells the user something, which changes no answer
    obtain ⟨v, hp, htold⟩ := Prompter.handle_of_not_isRequest (p := p)
      (Bool.eq_false_iff.mpr he) d.user d.run.bus
    obtain ⟨hattended, hrun, huser, hrequests, hless⟩ := settled h.attended hd (by simp) hp
    rw [if_neg he, List.nil_append] at hrequests
    exact ⟨h.of_run_eq hattended hrun hrequests.symm (huser ▸ htold), hless k, none, hrun⟩

/-- A calm move that changes anything brings the dialogue further. -/
theorem Heads.step (h : d.Heads p limit world Q k) {m : Move} (hm : m.IsCalm) :
    d.step p limit m = d ∨
    ∃ k', (d.step p limit m).Heads p limit world Q k' ∧
      toDo k' (d.step p limit m) < toDo k d := by
  cases m with
  | leave => exact absurd rfl hm.1
  | cancel => exact absurd rfl hm.2
  | work =>
    cases h with
    | waiting q qs ha _ _ asks => exact Or.inl (by rw [Dialogue.step, asks.still])
    | working qs ha hnone hgives course =>
      cases course with
      | ended hfinished => exact Or.inl (by rw [Dialogue.step, Run.step_of_finished hfinished])
      | @work k _ _ r' news hstep hposted hlistening hquiet rest =>
        obtain ⟨hattended, hrequests, hless⟩ := worked news ha hposted hlistening
        have hnews : news.toList.filter (·.isRequest) = [] :=
          List.filter_eq_nil_iff.mpr fun e he => by simp [hquiet e (by simpa using he)]
        rw [hnone, hnews] at hrequests
        rw [Dialogue.step, hstep]
        exact Or.inr ⟨k, .working qs hattended hrequests hgives rest, hless k⟩
      | @ask k q qs _ r' hstep hposted hlistening asks rest =>
        obtain ⟨hattended, hrequests, hless⟩ := worked (some q.1) ha hposted hlistening
        have hnews : (some q.1).toList.filter (·.isRequest) = [q.1] := by
          simp [asks.isRequest]
        rw [hnone, hnews] at hrequests
        rw [Dialogue.step, hstep]
        exact Or.inr ⟨k, .waiting q qs hattended hrequests hgives asks rest, hless k⟩
  | take =>
    rcases take_cases h.attended with htake | ⟨hattended, hrun, huser, hrequests, hless⟩
    · exact Or.inl htake
    · have htold : p.Told d.user d.take.user := by
        rw [huser]
        exact .nothing d.user
      exact Or.inr ⟨k, h.of_run_eq hattended hrun hrequests htold, hless k⟩
  | settle =>
    cases hd : d.handling with
    | none => exact Or.inl (by simp only [Dialogue.step, Dialogue.settle, hd])
    | some e =>
      obtain ⟨hheads, hless, -⟩ := h.settle hd
      exact Or.inr ⟨k, hheads, hless⟩

/-- Where no calm move changes anything, the run is over. -/
theorem Heads.of_stuck (h : d.Heads p limit world Q k)
    (stuck : ∀ m : Move, m.IsCalm → d.step p limit m = d) :
    d.run.stage = .finished ∧ Q d.run := by
  have hwork : d.step p limit .work = d := stuck _ ⟨nofun, nofun⟩
  have htake : d.take = d := stuck .take ⟨nofun, nofun⟩
  have hsettle : d.settle p limit = d := stuck .settle ⟨nofun, nofun⟩
  cases hd : d.handling with
  | some e =>
    -- to deal with the event at hand would have changed something
    obtain ⟨-, hless, -⟩ := h.settle hd
    rw [hsettle] at hless
    exact absurd hless (Nat.lt_irrefl _)
  | none =>
    cases h with
    | working _ _ _ _ course => exact course.of_still (congrArg Dialogue.run hwork)
    | waiting _ _ _ hone =>
      -- the request is still in the queue
      cases hq : d.queue with
      | nil => simp [requests, hd, hq] at hone
      | cons e rest =>
        have := congrArg Dialogue.handling htake
        simp [take, hd, hq] at this

/-- What is left when the run is over is the attendant's business. -/
theorem Heads.run_step_of_finished (h : d.Heads p limit world Q k) (hd : d.run.stage = .finished)
    {m : Move} (hm : m.IsCalm) : (d.step p limit m).run = d.run := by
  cases m with
  | leave => exact absurd rfl hm.1
  | cancel => exact absurd rfl hm.2
  | work => exact Run.step_of_finished hd
  | take =>
    rcases take_cases h.attended with htake | ⟨-, hrun, -⟩
    · exact congrArg Dialogue.run htake
    · exact hrun
  | settle =>
    cases hhandling : d.handling with
    | none => simp only [Dialogue.step, Dialogue.settle, hhandling]
    | some e =>
      obtain ⟨-, -, reply, hrun⟩ := h.settle hhandling
      exact hrun.trans (Run.receive_of_finished hd reply)

/-! ## Fair schedules -/

section fair
variable {schedule : Nat → Move} {f : Nat → Dialogue π} {n : Nat}

/-- Up to any time either nothing has changed or the dialogue was brought further. -/
theorem Heads.same_or_less (fair : Fair schedule)
    (next : ∀ n, f (n + 1) = (f n).step p limit (schedule n)) (h : (f n).Heads p limit world Q k)
    (j : Nat) : f (n + j) = f n ∨
      ∃ i k', (f i).Heads p limit world Q k' ∧ toDo k' (f i) < toDo k (f n) := by
  induction j with
  | zero => exact Or.inl rfl
  | succ j ih =>
    rcases ih with hsame | hless
    · have hnext : f (n + (j + 1)) = (f n).step p limit (schedule (n + j)) := by
        rw [← Nat.add_assoc, next, hsame]
      rcases h.step (fair.calm (n + j)) with hstep | ⟨k', hheads, hless⟩
      · exact Or.inl (hnext.trans hstep)
      · rw [← hnext] at hheads hless
        exact Or.inr ⟨_, k', hheads, hless⟩
    · exact Or.inr hless

/-- At some time the run is over. -/
theorem Heads.exists_finished (fair : Fair schedule)
    (next : ∀ n, f (n + 1) = (f n).step p limit (schedule n)) (h : (f n).Heads p limit world Q k) :
    ∃ N k', (f N).Heads p limit world Q k' ∧ (f N).run.stage = .finished ∧ Q (f N).run := by
  induction hT : toDo k (f n) using Nat.strongRecOn generalizing n k with
  | ind T ih =>
    by_cases stuck : ∀ m : Move, m.IsCalm → (f n).step p limit m = f n
    · exact ⟨n, k, h, h.of_stuck stuck⟩
    · obtain ⟨m, hm⟩ := Classical.not_forall.mp stuck
      obtain ⟨hm, hmoves⟩ := Classical.not_imp.mp hm
      -- the move that changes something comes, unless another did before it
      obtain ⟨t, ht, rfl⟩ := fair.again m hm n
      obtain ⟨j, rfl⟩ := Nat.exists_eq_add_of_le ht
      rcases h.same_or_less fair next j with hsame | ⟨i, k', hheads, hless⟩
      · rcases h.step hm with hstep | ⟨k', hheads, hless⟩
        · exact absurd hstep hmoves
        · rw [← hsame, ← next] at hheads hless
          rw [hsame] at hless
          exact ih _ (hT ▸ hless) hheads rfl
      · exact ih _ (hT ▸ hless) hheads rfl

/-- A run that is over stays as it is. -/
theorem Heads.run_of_finished (fair : Fair schedule)
    (next : ∀ n, f (n + 1) = (f n).step p limit (schedule n)) (h : (f n).Heads p limit world Q k)
    (hf : (f n).run.stage = .finished) (j : Nat) :
    (f (n + j)).run = (f n).run ∧ ∃ k', (f (n + j)).Heads p limit world Q k' := by
  induction j with
  | zero => exact ⟨rfl, k, h⟩
  | succ j ih =>
    obtain ⟨hrun, k', hheads⟩ := ih
    have hcalm := fair.calm (n + j)
    rw [← Nat.add_assoc, next]
    refine ⟨(hheads.run_step_of_finished (hrun ▸ hf) hcalm).trans hrun, ?_⟩
    rcases hheads.step hcalm with hstep | ⟨k'', hheads', -⟩
    · exact ⟨k', by rwa [hstep]⟩
    · exact ⟨k'', hheads'⟩

end fair

theorem moves_range_succ (d : Dialogue π) (schedule : Nat → Move) (n : Nat) :
    d.moves p limit ((List.range (n + 1)).map schedule)
      = (d.moves p limit ((List.range n).map schedule)).step p limit (schedule n) := by
  rw [List.range_succ, List.map_append, moves, List.foldl_append]
  rfl

/-- A dialogue on its way comes to its end, whoever moves when. -/
theorem Heads.completes (h : d.Heads p limit world Q k) {schedule : Nat → Move}
    (fair : Fair schedule) :
    ∃ N, ∀ n, N ≤ n → (d.moves p limit ((List.range n).map schedule)).run.stage = .finished ∧
      Q (d.moves p limit ((List.range n).map schedule)).run := by
  let f (n : Nat) : Dialogue π := d.moves p limit ((List.range n).map schedule)
  have next : ∀ n, f (n + 1) = (f n).step p limit (schedule n) := moves_range_succ d schedule
  obtain ⟨N, k', hheads, hfinished, hQ⟩ := Heads.exists_finished (f := f) (n := 0) fair next h
  refine ⟨N, fun n hn => ?_⟩
  obtain ⟨j, rfl⟩ := Nat.exists_eq_add_of_le hn
  obtain ⟨hrun, -⟩ := Heads.run_of_finished (f := f) fair next hheads hfinished j
  change (f (N + j)).run.stage = .finished ∧ Q (f (N + j)).run
  rw [hrun]
  exact ⟨hfinished, hQ⟩

end Dialogue

end Palmtop.Migration
