import Palmtop.Proofs.Archive.Skipping

/-! # What becomes of every record ahead

A cursor over an archive that can be read to its end `Offers` the records ahead of it, those of a
database that is being passed over left out.  It hands them out one by one, or comes to its end when
there are none (`Cursor.Offers.next`), and a skip takes from them what follows directly of the same
database (`Cursor.Offers.skip`).  The databases of an archive may come in any order, and again.

Whoever puts these records somewhere, and skips where one is refused, has accounted for each of
them: it was taken, or abandoned behind or with one that was refused (`Fares`).
-/
namespace Palmtop.Archive

/-! ## What follows of a database -/

theorem database_of_takeWhile {rs : List Record} {name : String} {x : Record}
    (h : x ∈ rs.takeWhile (·.database = name)) : x.database = name :=
  of_decide_eq_true (List.all_eq_true.mp List.all_takeWhile x h)

theorem database_of_dropWhile {rs : List Record} {name : String} {x : Record}
    (h : x ∈ (rs.dropWhile (·.database = name)).head?) : x.database ≠ name := by
  have hother := List.head?_dropWhile_not (fun y : Record => decide (y.database = name)) rs
  rw [Option.mem_def.mp h] at hother
  exact of_decide_eq_false hother

namespace Cursor

variable {c c'' : Cursor} {wanted : String → Bool} {ms rest' : List Tar.Member} {m : Tar.Member}
  {r : Record} {rest : List Record} {answer : Except Error Record}

/-! ## Members passed over -/

theorem seek_eq_none (h : seek wanted ms = none) : ∀ m ∈ ms, outcome wanted m = none := by
  rcases seek_cases wanted ms with ⟨-, hnone⟩ | ⟨answer, rest', hseek, -⟩
  · exact List.filterMap_eq_nil_iff.mp hnone
  · cases h.symm.trans hseek

/-- What is found is the outcome of a member, and those before it come to nothing. -/
theorem seek_eq_some (h : seek wanted ms = some (answer, rest')) :
    ∃ pre m, ms = pre ++ m :: rest' ∧ (∀ x ∈ pre, outcome wanted x = none) ∧
      outcome wanted m = some answer := by
  induction ms with
  | nil => cases h
  | cons m ms ih =>
    -- a member that comes to nothing stands before what is found behind it
    have hpassed (hm : outcome wanted m = none) (hseek : seek wanted ms = some (answer, rest')) :
        ∃ pre x, m :: ms = pre ++ x :: rest' ∧ (∀ y ∈ pre, outcome wanted y = none) ∧
          outcome wanted x = some answer := by
      obtain ⟨pre, x, rfl, hpre, hx⟩ := ih hseek
      exact ⟨m :: pre, x, rfl, List.forall_mem_cons.mpr ⟨hm, hpre⟩, hx⟩
    rw [seek] at h
    cases hentry : entry? m with
    | none =>
      rw [hentry] at h
      exact hpassed (by simp only [outcome, hentry]) h
    | some name =>
      rw [hentry] at h
      dsimp only at h
      split at h
      · rename_i hwanted
        obtain ⟨rfl, rfl⟩ := Prod.mk.inj (Option.some.inj h)
        exact ⟨[], m, rfl, List.forall_mem_nil _, by simp only [outcome, hentry, if_pos hwanted]⟩
      · rename_i hwanted
        exact hpassed (by simp only [outcome, hentry, if_neg hwanted]) h

theorem wanted_iff {database : String} : c.wanted database = true ↔
    c.skipping ≠ some database ∧ passes c.filter database = true := by
  rw [Cursor.wanted, Bool.and_eq_true]
  exact and_congr bne_iff_ne Iff.rfl

/-- What the filter lets pass is handed out unless it is of the database being passed over. -/
theorem outcome_wanted_eq_none (hm : outcome c.wanted m = none)
    (hr : outcome (passes c.filter) m = some (.ok r)) : c.skipping = some r.database := by
  unfold outcome at hm hr
  split at hr
  · rename_i name hentry
    rw [hentry] at hm
    dsimp only at hm
    split at hr
    · rename_i hpasses
      have hdatabase := (sound_of_recordOf (Option.some.inj hr)).2
      split at hm
      · cases hm
      · rename_i hwanted
        rw [wanted_iff] at hwanted
        rw [hdatabase]
        exact Classical.byContradiction fun hne => hwanted ⟨hne, hpasses⟩
    · cases hr
  · cases hr

theorem outcome_wanted_eq_some (hm : outcome c.wanted m = some answer) :
    outcome (passes c.filter) m = some answer ∧
      ∀ r, answer = .ok r → c.skipping ≠ some r.database := by
  unfold outcome at hm ⊢
  split at hm
  · rename_i name hentry
    split at hm
    · rename_i hwanted
      obtain ⟨hskipping, hpasses⟩ := wanted_iff.mp hwanted
      rw [if_pos hpasses]
      refine ⟨hm, ?_⟩
      rintro r rfl
      rw [(sound_of_recordOf (Option.some.inj hm)).2]
      exact hskipping
    · cases hm
  · cases hm

/-! ## The records ahead -/

/-- These records are still to be handed out if nothing is skipped any more: all those ahead that
the filter lets pass, but the first ones if their database is being passed over. -/
structure Offers (c : Cursor) (rest : List Record) : Prop where
  whole : c.broken = false
  ended : c.ended = true → c.members = []
  /-- A database is passed over from between two records on. -/
  between : c.skipping = none ∨ c.current = none ∧ c.peeked = none
  ahead : ∃ passed later, c.members.filterMap (outcome (passes c.filter)) = later.map .ok ∧
    c.peeked.toList ++ later = passed ++ rest ∧ (∀ x ∈ passed, c.skipping = some x.database) ∧
    ∀ x ∈ rest.head?, c.skipping ≠ some x.database

/-- Behind a record taken, the cursor passes nothing over. -/
structure Took (c : Cursor) (r : Record) (rest : List Record) : Prop extends c.Offers rest where
  current : c.current = some r.database
  peeked : c.peeked = none
  skipping : c.skipping = none

/-- A list falls in two where what is passed over ends. -/
theorem eq_of_passed {α : Type} {p : α → Prop} {as bs pre later : List α} {a : α}
    (h : as ++ bs = pre ++ a :: later) (has : ∀ x ∈ as, p x) (hpre : ∀ x ∈ pre, p x) (ha : ¬ p a)
    (hbs : ∀ x ∈ bs.head?, ¬ p x) : bs = a :: later := by
  induction as generalizing pre with
  | nil =>
    cases pre with
    | nil => exact h
    | cons x pre =>
      rw [List.nil_append] at h
      exact absurd (hpre x List.mem_cons_self) (hbs x (by rw [h]; rfl))
  | cons x as ih =>
    cases pre with
    | nil =>
      obtain ⟨rfl, -⟩ := List.cons.inj h
      exact absurd (has _ List.mem_cons_self) ha
    | cons y pre =>
      exact ih (List.cons.inj h).2 (fun z hz => has z (List.mem_cons_of_mem _ hz))
        fun z hz => hpre z (List.mem_cons_of_mem _ hz)

/-- Where nothing is passed over, all that is ahead is offered. -/
theorem Offers.later (h : c.Offers rest) (hskipping : c.skipping = none) :
    ∃ later, c.members.filterMap (outcome (passes c.filter)) = later.map .ok ∧
      c.peeked.toList ++ later = rest := by
  obtain ⟨passed, later, hlater, hrest, hpassed, -⟩ := h.ahead
  cases passed with
  | nil => exact ⟨later, hlater, hrest⟩
  | cons x passed => cases hskipping.symm.trans (hpassed x List.mem_cons_self)

/-- Behind the last record and what is passed over, there is nothing. -/
theorem Offers.nothing (h : c.Offers rest) (hp : c.peeked = none)
    (hnone : ∀ m ∈ c.members, outcome c.wanted m = none) : rest = [] := by
  obtain ⟨passed, later, hlater, hrest, -, hfirst⟩ := h.ahead
  rw [hp, Option.toList_none, List.nil_append] at hrest
  cases rest with
  | nil => rfl
  | cons x rest =>
    have hx : Except.ok x ∈ c.members.filterMap (outcome (passes c.filter)) := by
      rw [hlater, hrest]
      exact List.mem_map_of_mem (List.mem_append_right _ List.mem_cons_self)
    obtain ⟨m, hm, hmx⟩ := List.mem_filterMap.mp hx
    exact absurd (outcome_wanted_eq_none (hnone m hm) hmx) (hfirst x rfl)

/-- The next record is the first of those offered. -/
theorem Offers.first {pre : List Tar.Member} (h : c.Offers rest) (hp : c.peeked = none)
    (hmembers : c.members = pre ++ m :: rest') (hpre : ∀ x ∈ pre, outcome c.wanted x = none)
    (hm : outcome c.wanted m = some answer) :
    ∃ r later, answer = .ok r ∧ rest = r :: later ∧
      rest'.filterMap (outcome (passes c.filter)) = later.map .ok := by
  obtain ⟨passed, later, hlater, hrest, hpassed, hfirst⟩ := h.ahead
  rw [hp, Option.toList_none, List.nil_append] at hrest
  obtain ⟨hanswer, hunskipped⟩ := outcome_wanted_eq_some hm
  rw [hmembers, List.filterMap_append, List.filterMap_cons_some hanswer] at hlater
  obtain ⟨before, behind, rfl, hbefore, hbehind⟩ := List.append_eq_map_iff.mp hlater
  obtain ⟨r, later, rfl, hr, hrest'⟩ := List.map_eq_cons_iff.mp hbehind
  obtain rfl := hr
  refine ⟨r, later, rfl, ?_, hrest'.symm⟩
  have hskipped : ∀ x ∈ before, c.skipping = some x.database := fun x hx => by
    have hmem : Except.ok x ∈ pre.filterMap (outcome (passes c.filter)) :=
      hbefore ▸ List.mem_map_of_mem hx
    obtain ⟨y, hy, hyx⟩ := List.mem_filterMap.mp hmem
    exact outcome_wanted_eq_none (hpre y hy) hyx
  exact eq_of_passed (p := fun x => c.skipping = some x.database) hrest.symm hpassed hskipped
    (hunskipped r rfl) hfirst

theorem Offers.pull (h : c.Offers rest) (hp : c.peeked = none) :
    (c.pull = (.ok none, { c with members := [], ended := true }) ∧ rest = []) ∨
    ∃ r later members, c.pull = (.ok (some r), { c with members }) ∧ rest = r :: later ∧
      members.filterMap (outcome (passes c.filter)) = later.map .ok ∧ c.ended = false := by
  cases hseek : seek c.wanted c.members with
  | none =>
    refine Or.inl ⟨?_, h.nothing hp (seek_eq_none hseek)⟩
    simp only [Cursor.pull, hseek, h.whole, Bool.false_eq_true, if_false]
  | some found =>
    obtain ⟨answer, members⟩ := found
    obtain ⟨pre, m, hmembers, hpre, hm⟩ := seek_eq_some hseek
    obtain ⟨r, later, rfl, hrest, hlater⟩ := h.first hp hmembers hpre hm
    refine Or.inr ⟨r, later, members, by simp only [Cursor.pull, hseek], hrest, hlater, ?_⟩
    refine eq_false_of_ne_true fun hended => ?_
    have hempty := h.ended hended
    rw [hmembers, List.append_eq_nil_iff] at hempty
    cases hempty.2

theorem offers_end (h : c.Offers rest) (hp : c.peeked = none) :
    Offers { c with members := [], ended := true } [] where
  whole := h.whole
  ended _ := rfl
  between := h.between
  ahead := ⟨[], [], rfl, by rw [hp]; rfl, nofun, nofun⟩

/-- The record is taken, and those behind it are left. -/
theorem took_taken {members : List Tar.Member} {later : List Record} (h : c.Offers rest)
    (hlater : members.filterMap (outcome (passes c.filter)) = later.map .ok)
    (hended : c.ended = true → members = []) (r : Record) :
    (Cursor.taken { c with members, peeked := none } r).Took r later := by
  obtain ⟨hmembers, hbroken, hpeeked, hfilter⟩ :=
    taken_rest { c with members, peeked := none } r
  have hskipping : (Cursor.taken { c with members, peeked := none } r).skipping = none := by
    unfold Cursor.taken
    split
    · rename_i hcurrent
      exact h.between.resolve_right fun hbetween => by simp [hbetween.1] at hcurrent
    · rfl
  have hgone : (Cursor.taken { c with members, peeked := none } r).ended = c.ended := by
    unfold Cursor.taken
    split
    · rfl
    · rfl
  refine ⟨⟨hbroken.trans h.whole, fun he => ?_, Or.inl hskipping, [], later, ?_, ?_, nofun, ?_⟩,
    current_taken _ r, hpeeked, hskipping⟩
  · rw [hmembers]
    exact hended (hgone ▸ he)
  · rw [hmembers, hfilter]
    exact hlater
  · rw [hpeeked]
    rfl
  · rw [hskipping]
    exact fun _ _ => nofun

/-- The next call finds the first record offered, and if there is none, nothing. -/
theorem Offers.next (h : c.Offers rest) :
    (∃ c', c.next = (.ok none, c') ∧ rest = [] ∧ c'.Offers []) ∨
    ∃ r later c', c.next = (.ok (some r), c') ∧ rest = r :: later ∧ c'.Took r later := by
  cases hp : c.peeked with
  | some record =>
    have hskipping := h.between.resolve_right fun hbetween => by
      rw [hbetween.2] at hp
      cases hp
    obtain ⟨later, hlater, hrest⟩ := h.later hskipping
    rw [hp, Option.toList_some, List.singleton_append] at hrest
    exact Or.inr ⟨record, later, _, by simp only [Cursor.next, hp], hrest.symm,
      took_taken h hlater h.ended record⟩
  | none =>
    rcases h.pull hp with ⟨hpull, hrest⟩ | ⟨r, later, members, hpull, hrest, hlater, hgoing⟩
    · exact Or.inl ⟨_, by simp only [Cursor.next, hp, hpull], hrest, offers_end h hp⟩
    · refine Or.inr ⟨r, later, Cursor.taken { c with members } r, ?_, hrest, ?_⟩
      · simp only [Cursor.next, hp, hpull]
      · have htook := took_taken h hlater (fun hended => by simp [hgoing] at hended) r
        rwa [← hp] at htook

/-- A record that is handed out is the first of those offered. -/
theorem Offers.took (h : c.Offers rest) (hread : c.next = (.ok (some r), c'')) :
    ∃ later, rest = r :: later ∧ c''.Took r later := by
  rcases h.next with ⟨c', hnext, -⟩ | ⟨r', later, c', hnext, hrest, htook⟩
  · cases hread.symm.trans hnext
  · cases hread.symm.trans hnext
    exact ⟨later, hrest, htook⟩

theorem Offers.spent (h : c.Offers rest) (hread : c.next = (.ok none, c'')) :
    rest = [] ∧ c''.Offers [] := by
  rcases h.next with ⟨c', hnext, hrest, hend⟩ | ⟨r', later, c', hnext, -⟩
  · cases hread.symm.trans hnext
    exact ⟨hrest, hend⟩
  · cases hread.symm.trans hnext

/-- Skipping takes away what follows of the same database. -/
theorem Took.skip (h : c.Took r rest) :
    c.skip.Offers (rest.dropWhile (·.database = r.database)) := by
  obtain ⟨later, hlater, hrest⟩ := h.later h.skipping
  rw [h.peeked, Option.toList_none, List.nil_append] at hrest
  have hskip : c.skip = { c with current := none, skipping := some r.database } := by
    simp only [Cursor.skip, h.current, h.peeked, Option.filter_none]
  rw [hskip]
  refine ⟨h.whole, h.ended, Or.inr ⟨rfl, h.peeked⟩, rest.takeWhile (·.database = r.database), later,
    hlater, ?_, fun x hx => ?_, fun x hx => ?_⟩
  · rw [h.peeked, Option.toList_none, List.nil_append, List.takeWhile_append_dropWhile, hrest]
  · rw [database_of_takeWhile hx]
  · exact fun he => database_of_dropWhile hx (Option.some.inj he).symm

/-- At the end, nothing is left. -/
theorem Offers.atEnd (h : c.Offers rest) (hend : c.atEnd = true) : rest = [] := by
  rw [Cursor.atEnd, Bool.and_eq_true, Option.isNone_iff_eq_none] at hend
  refine h.nothing hend.2 fun m hm => ?_
  rw [h.ended hend.1] at hm
  cases hm

theorem offers_ofContents {contents : Tar.Contents} {filter : Option (List String)}
    (hwhole : contents.broken = false)
    (hrest : contents.members.filterMap (outcome (passes filter)) = rest.map .ok) :
    (ofContents contents filter).Offers rest :=
  ⟨hwhole, nofun, Or.inl rfl, [], rest, hrest, rfl, nofun, fun _ _ => nofun⟩

/-- Looking at the next record takes nothing away. -/
theorem Offers.peek {database : Option String} (h : c.Offers rest) (hp : c.peeked = none)
    (hskipping : c.skipping = none) (hpeek : c.peek = (.ok database, c')) :
    c'.Offers rest ∧ (database = none → rest = []) := by
  simp only [Cursor.peek, hp] at hpeek
  rcases h.pull hp with ⟨hpull, rfl⟩ | ⟨r, later, members, hpull, rfl, hlater, hgoing⟩
  · rw [hpull] at hpeek
    cases hpeek
    exact ⟨⟨h.whole, fun _ => rfl, Or.inl hskipping, [], [], rfl, rfl, List.forall_mem_nil _,
      fun x hx => absurd hx (Option.not_mem_none x)⟩, fun _ => rfl⟩
  · rw [hpull] at hpeek
    cases hpeek
    refine ⟨⟨h.whole, fun hended => ?_, Or.inl hskipping, [], later, hlater, rfl,
      List.forall_mem_nil _, ?_⟩, fun hnone => by cases hnone⟩
    · simp [hgoing] at hended
    · exact fun x _ => by simp [hskipping]

end Cursor

/-! ## What became of them -/

section answers
variable {δ : Type} (puts : List (Record × Except δ Unit)) (r : Record)

/-- The records that were taken, of those put. -/
def takenOf : List Record := (puts.filter (·.2.isOk)).map (·.1)

/-- The records that were refused. -/
def refusedOf : List Record := (puts.filter (!·.2.isOk)).map (·.1)

theorem takenOf_append (more : List (Record × Except δ Unit)) :
    takenOf (puts ++ more) = takenOf puts ++ takenOf more := by
  rw [takenOf, List.filter_append, List.map_append]
  rfl

theorem refusedOf_append (more : List (Record × Except δ Unit)) :
    refusedOf (puts ++ more) = refusedOf puts ++ refusedOf more := by
  rw [refusedOf, List.filter_append, List.map_append]
  rfl

@[simp] theorem takenOf_take : takenOf (puts ++ [(r, .ok ())]) = takenOf puts ++ [r] :=
  takenOf_append puts _

@[simp] theorem takenOf_refuse (e : δ) : takenOf (puts ++ [(r, .error e)]) = takenOf puts :=
  (takenOf_append puts _).trans (List.append_nil _)

@[simp] theorem refusedOf_take : refusedOf (puts ++ [(r, .ok ())]) = refusedOf puts :=
  (refusedOf_append puts _).trans (List.append_nil _)

@[simp] theorem refusedOf_refuse (e : δ) :
    refusedOf (puts ++ [(r, .error e)]) = refusedOf puts ++ [r] :=
  refusedOf_append puts _

end answers

/-- What became of records that were to be put somewhere, given those that were put, with the
answers: some were abandoned, and some are left.  With a record that is refused, those that follow
directly of its database are abandoned. -/
inductive Fares {δ : Type} : (records : List Record) → (puts : List (Record × Except δ Unit)) →
    (abandoned left : List Record) → Prop where
  | nil (left : List Record) : Fares left [] [] left
  | taken {r : Record} {rs : List Record} {puts : List (Record × Except δ Unit)}
      {abandoned left : List Record} (rest : Fares rs puts abandoned left) :
      Fares (r :: rs) ((r, .ok ()) :: puts) abandoned left
  | refused {r : Record} {behind rs : List Record} {puts : List (Record × Except δ Unit)}
      {abandoned left : List Record} (e : δ) (same : ∀ x ∈ behind, x.database = r.database)
      (others : ∀ x ∈ rs.head?, x.database ≠ r.database) (rest : Fares rs puts abandoned left) :
      Fares (r :: (behind ++ rs)) ((r, .error e) :: puts) (r :: (behind ++ abandoned)) left

namespace Fares

variable {δ : Type} {records abandoned left : List Record} {r : Record}
  {puts : List (Record × Except δ Unit)}

/-- Whatever was put before, what is put next is one of those left. -/
theorem trans {more : List (Record × Except δ Unit)} {abandoned' left' : List Record}
    (h : Fares records puts abandoned left) (h' : Fares left more abandoned' left') :
    Fares records (puts ++ more) (abandoned ++ abandoned') left' := by
  induction h with
  | nil => exact h'
  | taken _ ih => exact .taken (ih h')
  | refused e same others _ ih =>
    rw [List.cons_append, List.cons_append, List.append_assoc]
    exact .refused e same others (ih h')

theorem take (h : Fares records puts abandoned (r :: left)) :
    Fares records (puts ++ [(r, (.ok () : Except δ Unit))]) abandoned left := by
  have hrest := h.trans (.taken (.nil left))
  rwa [List.append_nil] at hrest

theorem refuse (h : Fares records puts abandoned (r :: left)) (e : δ) :
    ∃ abandoned', Fares records (puts ++ [(r, (.error e : Except δ Unit))]) abandoned'
      (left.dropWhile (·.database = r.database)) := by
  have hrefused := Fares.refused e
    (fun x (hx : x ∈ left.takeWhile (·.database = r.database)) => database_of_takeWhile hx)
    (fun x => database_of_dropWhile) (.nil (left.dropWhile (·.database = r.database)))
  rw [List.takeWhile_append_dropWhile] at hrefused
  exact ⟨_, h.trans hrefused⟩

/-- Every record was taken, abandoned or left. -/
theorem length_eq (h : Fares records puts abandoned left) :
    records.length = (takenOf puts).length + abandoned.length + left.length := by
  induction h with
  | nil left => rw [takenOf, List.filter_nil, List.map_nil, List.length_nil, Nat.zero_add]
  | @taken r rs puts _ _ _ ih =>
    rw [show takenOf ((r, (.ok () : Except δ Unit)) :: puts) = r :: takenOf puts from rfl,
      List.length_cons, List.length_cons, ih]
    omega
  | @refused r behind rs puts _ _ e _ _ _ ih =>
    rw [show takenOf ((r, (.error e : Except δ Unit)) :: puts) = takenOf puts from rfl,
      List.length_cons, List.length_append, List.length_cons, List.length_append, ih]
    omega

/-- What is refused is abandoned. -/
theorem refused_subset (h : Fares records puts abandoned left) : refusedOf puts ⊆ abandoned := by
  induction h with
  | nil => exact List.nil_subset _
  | taken _ ih => exact ih
  | refused _ _ _ _ ih =>
    exact List.cons_subset_cons _ (List.Subset.trans ih (List.subset_append_right _ _))

/-- What was abandoned is of the database of a record that was refused. -/
theorem database_of_abandoned (h : Fares records puts abandoned left) :
    ∀ x ∈ abandoned, x.database ∈ (refusedOf puts).map (·.database) := by
  induction h with
  | nil => nofun
  | taken _ ih => exact ih
  | refused _ same _ _ ih =>
    intro x hx
    refine List.mem_cons.mpr ?_
    rcases List.mem_cons.mp hx with rfl | hx
    · exact Or.inl rfl
    rcases List.mem_append.mp hx with hx | hx
    · exact Or.inl (same x hx)
    · exact Or.inr (ih x hx)

end Fares

end Palmtop.Archive
