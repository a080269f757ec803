import Palmtop.Transfer

/-! # Laws of moving records

Records put into a consumer one after another, going on behind each that is refused, and which of
them were taken (`Consumer.putAll`, `Consumer.taken`).

Two relations say that nothing goes wrong: a producer `Yields` a list of records and then its end, a
consumer `Takes` a list of records.  Two more allow for a database to be given up at a record that
is refused: the consumer `GivesUp` the rest of it, and the producer `Serves` the others all the same.
None looks at more than one call at a time, and so they are carried from a machine to a larger one
that does the same (`Yields.map`, `GivesUp.map`).

A producer that is asked on behind its errors `Answers` a list of records and errors; whoever stops
at the first error has the part of it `upToError`.
-/
namespace Palmtop

variable {σ σ' τ τ' ε δ : Type}

/-! ## Databases in one piece -/

/-- The records of the database come before all others. -/
def Leads (database : String) (rs : List Record) : Prop :=
  rs.Pairwise fun a b => b.database = database → a.database = database

/-- The records of each database follow one another. -/
def Grouped : List Record → Prop
  | [] => True
  | r :: rs => Leads r.database rs ∧ Grouped rs

theorem Grouped.of_append {pre rs : List Record} (h : Grouped (pre ++ rs)) : Grouped rs := by
  induction pre with
  | nil => exact h
  | cons _ _ ih => exact ih h.2

/-- One more database in front. -/
theorem Grouped.append {database : String} {front rs : List Record}
    (hfront : ∀ r ∈ front, r.database = database) (hrs : ∀ r ∈ rs, r.database ≠ database)
    (h : Grouped rs) : Grouped (front ++ rs) := by
  induction front with
  | nil => exact h
  | cons r front ih =>
    have hr := hfront r List.mem_cons_self
    have hrest : ∀ x ∈ front, x.database = database := fun x hx =>
      hfront x (List.mem_cons_of_mem _ hx)
    refine ⟨List.pairwise_append.mpr ⟨?_, ?_, ?_⟩, ih hrest⟩
    · exact List.pairwise_of_forall_mem_list fun a ha _ _ _ => (hrest a ha).trans hr.symm
    · exact List.pairwise_of_forall_mem_list fun _ _ b hb he =>
        absurd (he.trans hr) (hrs b hb)
    · exact fun a ha _ _ _ => (hrest a ha).trans hr.symm

theorem Grouped.sublist {rs rs' : List Record} (h : Grouped rs) (hs : rs'.Sublist rs) :
    Grouped rs' := by
  induction hs with
  | slnil => trivial
  | cons _ _ ih => exact ih h.2
  | cons_cons _ hs ih => exact ⟨List.Pairwise.sublist hs h.1, ih h.2⟩

/-- One more database at the end. -/
theorem Grouped.concat {database : String} {rs back : List Record} (h : Grouped rs)
    (hback : ∀ r ∈ back, r.database = database) (hrs : ∀ r ∈ rs, r.database ≠ database) :
    Grouped (rs ++ back) := by
  induction rs with
  | nil =>
    have hfront : Grouped (back ++ []) := Grouped.append hback nofun trivial
    rwa [List.append_nil] at hfront
  | cons r rs ih =>
    obtain ⟨hr, hrest⟩ := List.forall_mem_cons.mp hrs
    have hother : ∀ b ∈ back, b.database ≠ r.database := fun b hb he =>
      hr (he.symm.trans (hback b hb))
    refine ⟨List.pairwise_append.mpr ⟨h.1, ?_, ?_⟩, ih h.2 hrest⟩
    · exact List.pairwise_of_forall_mem_list fun _ _ b hb he => absurd he (hother b hb)
    · exact fun _ _ b hb he => absurd he (hother b hb)

/-- Behind a record of another database, the database does not come again. -/
theorem Leads.not_mem {database : String} {pre rs : List Record} {r : Record}
    (h : Leads database (pre ++ r :: rs)) (hr : r.database ≠ database) :
    ∀ x ∈ rs, x.database ≠ database := fun x hx he =>
  hr ((List.pairwise_cons.mp (List.pairwise_append.mp h).2.1).1 x hx he)

namespace Producer

/-- The producer hands out these records and comes to its end, with or without a last call that
finds nothing. -/
inductive Yields (source : Producer σ ε) : σ → List Record → σ → Prop where
  | ended {s : σ} (ends : source.ended s = true) : Yields source s [] s
  | exhausted {s t : σ} (goes : source.ended s = false) (next : source.next s = (.ok none, t))
      (ends : source.ended t = true) : Yields source s [] t
  | cons {s u t : σ} {r : Record} {rs : List Record} (goes : source.ended s = false)
      (next : source.next s = (.ok (some r), u)) (rest : Yields source u rs t) :
      Yields source s (r :: rs) t

/-- What is to come depends on the next call alone. -/
theorem Yields.of_next_eq {source : Producer σ ε} {s s' t : σ} {rs : List Record}
    (h : source.Yields s rs t) (goes' : source.ended s' = false) (goes : source.ended s = false)
    (next : source.next s' = source.next s) : source.Yields s' rs t := by
  cases h with
  | ended hs => exact absurd (goes.symm.trans hs) Bool.false_ne_true
  | exhausted _ hnext ht => exact .exhausted goes' (next.trans hnext) ht
  | cons _ hnext hrest => exact .cons goes' (next.trans hnext) hrest

/-- The producer hands out these records and comes to its end; and if behind one of them the others
of its database are skipped, it hands out those that remain. -/
inductive Serves (source : Producer σ ε) (skip : σ → σ) : σ → List Record → Prop where
  | ended {s : σ} (ends : source.ended s = true) : Serves source skip s []
  | exhausted {s t : σ} (goes : source.ended s = false) (next : source.next s = (.ok none, t))
      (ends : source.ended t = true) : Serves source skip s []
  | cons {s u : σ} {r : Record} {rs : List Record} (goes : source.ended s = false)
      (next : source.next s = (.ok (some r), u)) (rest : Serves source skip u rs)
      (others : Serves source skip (skip u) (rs.filter (·.database ≠ r.database))) :
      Serves source skip s (r :: rs)

/-- What is to come depends on the next call alone. -/
theorem Serves.of_next_eq {source : Producer σ ε} {skip : σ → σ} {s s' : σ} {rs : List Record}
    (h : source.Serves skip s rs) (goes' : source.ended s' = false)
    (goes : source.ended s = false) (next : source.next s' = source.next s) :
    source.Serves skip s' rs := by
  cases h with
  | ended hs => exact absurd (goes.symm.trans hs) Bool.false_ne_true
  | exhausted _ hnext ht => exact .exhausted goes' (next.trans hnext) ht
  | cons _ hnext hrest hothers => exact .cons goes' (next.trans hnext) hrest hothers

/-- A machine that does the same in the image of `f` hands out the same. -/
theorem Yields.map {source : Producer σ ε} {other : Producer σ' ε} (f : σ → σ')
    (ended : ∀ s, other.ended (f s) = source.ended s)
    (next : ∀ s, other.next (f s) = ((source.next s).1, f (source.next s).2)) {s t : σ}
    {rs : List Record} (h : source.Yields s rs t) : other.Yields (f s) rs (f t) := by
  induction h with
  | @ended s hs => exact .ended (by rw [ended, hs])
  | @exhausted s t hs hnext ht =>
    exact .exhausted (by rw [ended, hs]) (by rw [next, hnext]) (by rw [ended, ht])
  | @cons s u t r rs hs hnext _ ih => exact .cons (by rw [ended, hs]) (by rw [next, hnext]) ih

/-- Asked call after call, and on behind every error, the producer answers this up to the first call
that finds nothing. -/
inductive Answers (source : Producer σ ε) : σ → List (Except ε Record) → σ → Prop where
  | exhausted {s t : σ} (next : source.next s = (.ok none, t)) : Answers source s [] t
  | record {s u t : σ} {r : Record} {as : List (Except ε Record)}
      (next : source.next s = (.ok (some r), u)) (rest : Answers source u as t) :
      Answers source s (.ok r :: as) t
  | failed {s u t : σ} {e : ε} {as : List (Except ε Record)}
      (next : source.next s = (.error e, u)) (rest : Answers source u as t) :
      Answers source s (.error e :: as) t

end Producer

/-- What comes before the first error, and that error. -/
def upToError {α : Type} : List (Except ε α) → List α × Option ε
  | [] => ([], none)
  | .ok a :: rest => (a :: (upToError rest).1, (upToError rest).2)
  | .error e :: _ => ([], some e)

/-- There is no error if every answer is a value. -/
theorem upToError_eq_none_iff {α : Type} {answers : List (Except ε α)} {values : List α} :
    upToError answers = (values, none) ↔ answers = values.map .ok := by
  induction answers generalizing values with
  | nil =>
    constructor
    · intro h
      obtain ⟨rfl, -⟩ := Prod.mk.inj h
      rfl
    · intro h
      rw [List.map_eq_nil_iff.mp h.symm]
      rfl
  | cons answer answers ih =>
    cases answer with
    | error e =>
      constructor
      · intro h
        cases h
      · intro h
        cases values <;> cases h
    | ok a =>
      constructor
      · intro h
        obtain ⟨rfl, hnone⟩ := Prod.mk.inj h
        rw [List.map_cons, ← ih.mp (Prod.ext rfl hnone)]
      · intro h
        cases values with
        | nil => cases h
        | cons b values =>
          obtain ⟨hab, hrest⟩ := List.cons.inj h
          have hrest := ih.mpr hrest
          simp only [upToError, hrest, Except.ok.inj hab]

namespace Consumer

/-- Puts records one after another and answers what became of each. -/
def putAll (sink : Consumer τ δ) : List Record → τ → List (Except δ Unit) × τ
  | [], t => ([], t)
  | r :: rs, t =>
    let (answer, t) := sink.put r t
    let (answers, t) := putAll sink rs t
    (answer :: answers, t)

/-- The records that were not refused. -/
def taken (rs : List Record) (answers : List (Except δ Unit)) : List Record :=
  ((rs.zip answers).filter (·.2.isOk)).map (·.1)

theorem taken_cons_ok (r : Record) (rs : List Record) (answers : List (Except δ Unit)) :
    taken (r :: rs) (.ok () :: answers) = r :: taken rs answers := rfl

theorem taken_cons_error (r : Record) (rs : List Record) (e : δ)
    (answers : List (Except δ Unit)) : taken (r :: rs) (.error e :: answers) = taken rs answers :=
  rfl

/-- The consumer takes every one of these records. -/
inductive Takes (sink : Consumer τ δ) : τ → List Record → τ → Prop where
  | nil (t : τ) : Takes sink t [] t
  | cons {t u v : τ} {r : Record} {rs : List Record} (put : sink.put r t = (.ok (), u))
      (rest : Takes sink u rs v) : Takes sink t (r :: rs) v

/-- Where no record was refused, each was taken. -/
theorem takes_of_putAll {sink : Consumer τ δ} {rs : List Record} {t v : τ}
    {answers : List (Except δ Unit)} (h : sink.putAll rs t = (answers, v))
    (accepted : ∀ a ∈ answers, a = .ok ()) : sink.Takes t rs v := by
  induction rs generalizing t answers with
  | nil =>
    obtain ⟨-, rfl⟩ := Prod.mk.inj h
    exact .nil t
  | cons r rs ih =>
    obtain ⟨rfl, hv⟩ := Prod.mk.inj h
    have hr := accepted _ List.mem_cons_self
    exact .cons (Prod.ext hr rfl) (ih (Prod.ext rfl hv) fun a ha =>
      accepted a (List.mem_cons_of_mem _ ha))

/-- Where no record can be refused, each is taken. -/
theorem takes_of_accepted (sink : Consumer τ δ) {rs : List Record}
    (accepted : ∀ r ∈ rs, ∀ t, (sink.put r t).1 = .ok ()) (t : τ) :
    sink.Takes t rs (sink.putAll rs t).2 ∧ taken rs (sink.putAll rs t).1 = rs := by
  induction rs generalizing t with
  | nil => exact ⟨.nil t, rfl⟩
  | cons r rs ih =>
    obtain ⟨htakes, htaken⟩ := ih (fun x hx => accepted x (List.mem_cons_of_mem _ hx))
      (sink.put r t).2
    have hr := accepted r List.mem_cons_self t
    refine ⟨.cons (Prod.ext hr rfl) htakes, ?_⟩
    change taken (r :: rs) ((sink.put r t).1 :: (sink.putAll rs (sink.put r t).2).1) = r :: rs
    rw [hr, taken_cons_ok, htaken]

theorem Takes.putAll {sink : Consumer τ δ} {rs : List Record} {t v : τ} (h : sink.Takes t rs v) :
    (sink.putAll rs t).2 = v := by
  induction h with
  | nil t => rfl
  | cons hput _ ih => simp only [Consumer.putAll, hput, ih]

/-- The consumer is put these records one after another; where it refuses one, it is not put the
others of its database.  What it gave up in this way, and why. -/
inductive GivesUp (sink : Consumer τ δ) : τ → List Record → List (String × δ) → τ → Prop where
  | nil (t : τ) : GivesUp sink t [] [] t
  | taken {t u v : τ} {r : Record} {rs : List Record} {es : List (String × δ)}
      (put : sink.put r t = (.ok (), u)) (rest : GivesUp sink u rs es v) :
      GivesUp sink t (r :: rs) es v
  | refused {t u v : τ} {r : Record} {rs : List Record} {es : List (String × δ)} {e : δ}
      (put : sink.put r t = (.error e, u))
      (rest : GivesUp sink u (rs.filter (·.database ≠ r.database)) es v) :
      GivesUp sink t (r :: rs) ((r.database, e) :: es) v

theorem Takes.givesUp {sink : Consumer τ δ} {t v : τ} {rs : List Record} (h : sink.Takes t rs v) :
    sink.GivesUp t rs [] v := by
  induction h with
  | nil t => exact .nil t
  | cons hput _ ih => exact .taken hput ih

/-- A machine that does the same in the image of `f` gives up the same. -/
theorem GivesUp.map {sink : Consumer τ δ} {other : Consumer τ' δ} (f : τ → τ')
    (put : ∀ r t, other.put r (f t) = ((sink.put r t).1, f (sink.put r t).2)) {t v : τ}
    {rs : List Record} {es : List (String × δ)} (h : sink.GivesUp t rs es v) :
    other.GivesUp (f t) rs es (f v) := by
  induction h with
  | nil t => exact .nil (f t)
  | taken hput _ ih => exact .taken (by rw [put, hput]) ih
  | refused hput _ ih => exact .refused (by rw [put, hput]) ih

end Consumer

/-! ## Single moves -/

section transfer
variable {source : Producer σ ε} {s s' : σ}

theorem transfer_of_end (sink : Consumer τ δ) (t : τ) (next : source.next s = (.ok none, s')) :
    transfer source sink s t = (.ok false, s', t) := by
  simp only [transfer, next]

theorem transfer_of_put {sink : Consumer τ δ} {t t' : τ} {r : Record}
    (next : source.next s = (.ok (some r), s'))
    (put : sink.put r t = (.ok (), t')) : transfer source sink s t = (.ok true, s', t') := by
  simp only [transfer, next, put]

theorem transfer_of_refused {sink : Consumer τ δ} {t t' : τ} {r : Record} {e : δ}
    (next : source.next s = (.ok (some r), s')) (put : sink.put r t = (.error e, t')) :
    transfer source sink s t = (.error (.write r.database r.uniqueId e), s', t') := by
  simp only [transfer, next, put]

end transfer

end Palmtop
