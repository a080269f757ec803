import Palmtop.Proofs.Replica.Courses

/-! # Fetching the table between mutations

A mutation that the device has accepted may have moved every record, and so the slot table is to be
fetched before the next one.  Whether that has been done is read off the transcript (`unsettled`).
A replica that is not stale has done it, and an edit that looks for a slot does it first; the
mutations of an edit `Follow` one another with a fetch in between.

Adding a record is the exception.  It needs no slot, does not ask whether the replica is stale, and
issues its mutation at once (`editAll_refreshed`, `add_unrefreshed`).  Nothing here depends on what
the session answers.
-/
namespace Palmtop.Replica
open Device

variable {σ : Type} {session : Session σ} {name : String} {id : DatabaseId} {r r' : Replica}
  {s s' : σ × List Exchange} {t t₁ t₂ : List Exchange} {x : Exchange}

/-! ## Transcripts -/

/-- Whether a mutation was accepted behind the latest fetch of the table that was accepted. -/
def unsettled (id : DatabaseId) : List Exchange → Bool
  | [] => false
  | x :: t =>
    if x = ⟨.slotTable id, true⟩ then false
    else (x.accepted && x.command.isMutation) || unsettled id t

theorem unsettled_cons (h : (x.accepted && x.command.isMutation) = false)
    (ht : unsettled id t = false) : unsettled id (x :: t) = false := by
  rw [unsettled]
  split
  · rfl
  · rw [h, ht]
    rfl

theorem unsettled_fetched (id : DatabaseId) (t : List Exchange) :
    unsettled id (⟨.slotTable id, true⟩ :: t) = false := if_pos rfl

theorem unsettled_of_looks (h : ∀ x ∈ t, x.command.isMutation = false) :
    unsettled id t = false := by
  induction t with
  | nil => rfl
  | cons x t ih =>
    obtain ⟨hx, ht⟩ := List.forall_mem_cons.mp h
    exact unsettled_cons (by rw [hx, Bool.and_false]) (ih ht)

/-- Where nothing is unsettled, the table was fetched behind every accepted mutation. -/
theorem fetch_mem {mid older : List Exchange} {first : Exchange}
    (h : unsettled id (mid ++ first :: older) = false) (hmutation : first.command.isMutation = true)
    (haccepted : first.accepted = true) : ⟨.slotTable id, true⟩ ∈ mid := by
  induction mid with
  | nil =>
    have hfetch : first ≠ ⟨.slotTable id, true⟩ := by
      rintro rfl
      cases hmutation
    rw [List.nil_append, unsettled, if_neg hfetch, haccepted, hmutation] at h
    cases h
  | cons x mid ih =>
    by_cases hx : x = ⟨.slotTable id, true⟩
    · exact hx ▸ List.mem_cons_self
    · rw [List.cons_append, unsettled, if_neg hx, Bool.or_eq_false_iff] at h
      exact List.mem_cons_of_mem _ (ih h.2)

/-- The transcript has grown, and no mutation was issued while another was unsettled. -/
inductive Follows (id : DatabaseId) (t : List Exchange) : List Exchange → Prop where
  | refl : Follows id t t
  | look {t' : List Exchange} {x : Exchange} (h : Follows id t t')
      (looks : x.command.isMutation = false) : Follows id t (x :: t')
  | mutation {t' : List Exchange} (x : Exchange) (h : Follows id t t')
      (settled : unsettled id t' = false) : Follows id t (x :: t')

theorem Follows.trans (h₁ : Follows id t t₁) (h₂ : Follows id t₁ t₂) : Follows id t t₂ := by
  induction h₂ with
  | refl => exact h₁
  | look _ hlooks ih => exact .look ih hlooks
  | mutation x _ hsettled ih => exact .mutation x ih hsettled

/-- A mutation in the transcript was issued where nothing was unsettled, or is an older one. -/
theorem Follows.split (h : Follows id t t₁) {newer rest : List Exchange}
    (hsplit : t₁ = newer ++ x :: rest) (hmutation : x.command.isMutation = true) :
    unsettled id rest = false ∨ ∃ newer', t = newer' ++ x :: rest := by
  induction h generalizing newer with
  | refl => exact Or.inr ⟨newer, hsplit⟩
  | look _ hlooks ih =>
    cases newer with
    | nil =>
      obtain ⟨rfl, -⟩ := List.cons.inj hsplit
      rw [hmutation] at hlooks
      cases hlooks
    | cons y newer => exact ih (List.cons.inj hsplit).2
  | mutation y _ hsettled ih =>
    cases newer with
    | nil =>
      obtain ⟨-, rfl⟩ := List.cons.inj hsplit
      exact Or.inl hsettled
    | cons z newer => exact ih (List.cons.inj hsplit).2

/-! ## Edits -/

/-- Where a run has led that began behind the transcript `t`: the replica knows whether something is
unsettled, and the transcript follows. -/
structure Careful (id : DatabaseId) (t : List Exchange) (r' : Replica) (t' : List Exchange) :
    Prop where
  sameId : r'.id = id
  settled : r'.stale = false → unsettled id t' = false
  follows : Follows id t t'

theorem Careful.after (h₁ : Follows id t t₁) (h : Careful id t₁ r' t₂) : Careful id t r' t₂ :=
  ⟨h.sameId, h.settled, h₁.trans h.follows⟩

/-- A mutation that was refused. -/
theorem Careful.refused (hid : r.id = id) (hsettled : r.stale = false → unsettled id t = false)
    (hnow : unsettled id t = false) (c : Command) : Careful id t r (⟨c, false⟩ :: t) :=
  ⟨hid, fun hs => unsettled_cons (Bool.false_and _) (hsettled hs), .mutation _ .refl hnow⟩

theorem refresh_careful {answer : Except Error Unit}
    (h : r.refresh session.recorded s = (answer, r', s')) (hid : r.id = id) :
    Careful id s.2 r' s'.2 ∧ (answer = .ok () → r'.stale = false) := by
  subst hid
  unfold refresh at h
  split at h
  · rename_i hrun
    cases h
    rw [(of_recorded hrun).2]
    exact ⟨⟨rfl, nofun, .look .refl rfl⟩, nofun⟩
  · rename_i hrun
    cases h
    rw [(of_recorded hrun).2]
    exact ⟨⟨rfl, fun _ => unsettled_fetched _ _, .look .refl rfl⟩, fun _ => rfl⟩

theorem settle_careful {u : UniqueId} {answer : Except Error Settled}
    (h : r.settle session.recorded u s = (answer, r', s')) (hid : r.id = id) :
    Careful id s.2 r' s'.2 := by
  unfold settle at h
  split at h
  · rename_i hrun
    cases h
    exact (refresh_careful hrun hid).1
  · rename_i hrun
    split at h <;>
    · obtain ⟨-, h⟩ := Prod.mk.inj h
      obtain ⟨rfl, rfl⟩ := Prod.mk.inj h
      exact (refresh_careful hrun hid).1

/-- A slot is found only when nothing is unsettled. -/
theorem currentSlot_careful {u : UniqueId} {answer : Except Error Slot}
    (h : r.currentSlot session.recorded u s = (answer, r', s')) (hid : r.id = id)
    (hsettled : r.stale = false → unsettled id s.2 = false) :
    Careful id s.2 r' s'.2 ∧ ∀ slot, answer = .ok slot → r'.stale = false := by
  simp only [currentSlot] at h
  split at h
  · split at h
    · rename_i hrun
      cases h
      refine ⟨(refresh_careful hrun hid).1, fun _ hanswer => ?_⟩
      cases hanswer
    · rename_i hrun
      obtain ⟨hcareful, hfresh⟩ := refresh_careful hrun hid
      split at h <;>
      · obtain ⟨-, h⟩ := Prod.mk.inj h
        obtain ⟨rfl, rfl⟩ := Prod.mk.inj h
        exact ⟨hcareful, fun _ _ => hfresh rfl⟩
  · rename_i hstale
    split at h <;>
    · obtain ⟨-, h⟩ := Prod.mk.inj h
      obtain ⟨rfl, rfl⟩ := Prod.mk.inj h
      exact ⟨⟨hid, hsettled, .refl⟩, fun _ _ => eq_false_of_ne_true hstale⟩

theorem overwriteInPlace_careful {slot : Slot} {content : Record} {answer : Except Error Entry}
    (h : r.overwriteInPlace session.recorded slot content s = (answer, r', s'))
    (hid : r.id = id) (hnow : unsettled id s.2 = false) : Careful id s.2 r' s'.2 := by
  unfold overwriteInPlace at h
  split at h
  · rename_i hrun
    cases h
    rw [(of_recorded hrun).2]
    exact .refused hid (fun _ => hnow) hnow _
  · rename_i s₁ hrun
    have hfollows : Follows id s.2 s₁.2 := (of_recorded hrun).2 ▸ .mutation _ .refl hnow
    split at h <;>
    · rename_i hsettle
      cases h
      have hcareful := settle_careful hsettle hid
      exact Careful.after hfollows ⟨hcareful.sameId, hcareful.settled, hcareful.follows⟩

theorem overwriteByReplacing_careful {slot : Slot} {content : Record}
    {answer : Except Error Entry}
    (h : r.overwriteByReplacing session.recorded slot content s = (answer, r', s'))
    (hid : r.id = id) (hnow : unsettled id s.2 = false) : Careful id s.2 r' s'.2 := by
  simp only [overwriteByReplacing] at h
  split at h
  · rename_i hrun
    cases h
    rw [(of_recorded hrun).2]
    exact .refused hid (fun _ => hnow) hnow _
  rename_i s₁ hdelete
  have hdeleted : Follows id s.2 s₁.2 := (of_recorded hdelete).2 ▸ .mutation _ .refl hnow
  split at h
  · rename_i hrefresh
    cases h
    exact Careful.after hdeleted (refresh_careful hrefresh hid).1
  rename_i hrefresh
  -- behind the fetch the new record can be added
  obtain ⟨hcareful, hfresh⟩ := refresh_careful hrefresh hid
  have hnow := hcareful.settled (hfresh rfl)
  have hfetched := hdeleted.trans hcareful.follows
  split at h
  · rename_i hadd
    cases h
    rw [(of_recorded hadd).2]
    exact Careful.after hfetched (.refused hcareful.sameId hcareful.settled hnow _)
  rename_i s₃ hadd
  have hadded : Follows id s.2 s₃.2 := (of_recorded hadd).2 ▸ .mutation _ hfetched hnow
  split at h <;>
  · rename_i hsettle
    cases h
    have hrest := settle_careful hsettle hcareful.sameId
    exact Careful.after hadded ⟨hrest.sameId, hrest.settled, hrest.follows⟩

/-- Behind its first command an addition is as careful as any other edit. -/
theorem add_careful {content : Record} {answer : Except Error Entry}
    (h : r.add session.recorded content s = (answer, r', s')) (hid : r.id = id)
    (hsettled : r.stale = false → unsettled id s.2 = false) :
    ∃ x, Careful id (x :: s.2) r' s'.2 := by
  unfold add at h
  simp only at h
  split at h
  · rename_i hrun
    cases h
    rw [(of_recorded hrun).2]
    exact ⟨_, hid, fun hs => unsettled_cons (Bool.false_and _) (hsettled hs), .refl⟩
  · rename_i s₁ hrun
    obtain ⟨x, hlog⟩ : ∃ x, s₁.2 = x :: s.2 := ⟨_, (of_recorded hrun).2⟩
    refine ⟨x, ?_⟩
    rw [← hlog]
    split at h <;>
    · rename_i hsettle
      cases h
      have hrest := settle_careful hsettle hid
      exact ⟨hrest.sameId, hrest.settled, hrest.follows⟩

theorem edit_careful {answer : Except Error (Option Entry)} {e : Edit}
    (h : r.edit session.recorded e s = (answer, r', s')) (hid : r.id = id)
    (hsettled : r.stale = false → unsettled id s.2 = false) :
    Careful id s.2 r' s'.2 ∨
      r.stale = true ∧ (∃ content, e = .add content) ∧ ∃ x, Careful id (x :: s.2) r' s'.2 := by
  cases e with
  | add content =>
    rcases hrun : r.add session.recorded content s with ⟨answer', r₁, s₁⟩
    simp only [edit, hrun] at h
    cases h
    obtain ⟨x, hcareful⟩ := add_careful hrun hid hsettled
    cases hstale : r.stale with
    | true => exact Or.inr ⟨rfl, ⟨content, rfl⟩, x, hcareful⟩
    | false => exact Or.inl (.after (.mutation x .refl (hsettled hstale)) hcareful)
  | overwrite entry content =>
    rcases hrun : r.overwrite session.recorded entry content s with ⟨answer', r₁, s₁⟩
    simp only [edit, hrun] at h
    cases h
    simp only [overwrite] at hrun
    split at hrun
    · rename_i hlook
      cases hrun
      exact Or.inl (currentSlot_careful hlook hid hsettled).1
    · rename_i hlook
      obtain ⟨hcareful, hfresh⟩ := currentSlot_careful hlook hid hsettled
      have hnow := hcareful.settled (hfresh _ rfl)
      split at hrun
      · exact Or.inl (.after hcareful.follows (overwriteInPlace_careful hrun hcareful.sameId hnow))
      · exact Or.inl (.after hcareful.follows
          (overwriteByReplacing_careful hrun hcareful.sameId hnow))
  | delete entry =>
    rcases hrun : r.delete session.recorded entry s with ⟨answer', r₁, s₁⟩
    simp only [edit, hrun] at h
    cases h
    simp only [delete] at hrun
    split at hrun
    · rename_i hlook
      cases hrun
      exact Or.inl (currentSlot_careful hlook hid hsettled).1
    rename_i hlook
    obtain ⟨hcareful, hfresh⟩ := currentSlot_careful hlook hid hsettled
    have hnow := hcareful.settled (hfresh _ rfl)
    split at hrun
    · rename_i hdelete
      cases hrun
      rw [(of_recorded hdelete).2]
      exact Or.inl (.after hcareful.follows
        (.refused hcareful.sameId hcareful.settled hnow _))
    · rename_i s₂ hdelete
      have hdeleted : Follows id s.2 s₂.2 :=
        (of_recorded hdelete).2 ▸ .mutation _ hcareful.follows hnow
      exact Or.inl (.after hdeleted (refresh_careful hrun hcareful.sameId).1)

/-! ## Runs -/

theorem editAll_snoc (session : Session σ) (edits : List Edit) (e : Edit) (r : Replica) (s : σ) :
    editAll session (edits ++ [e]) r s
      = ((editAll session edits r s).1.edit session e (editAll session edits r s).2).2 := by
  induction edits generalizing r s with
  | nil => rfl
  | cons e edits ih => exact ih _ _

/-- One of the edits is an addition, begun behind this transcript by a replica that was stale. -/
def BegunStale (session : Session σ) (r : Replica) (s : σ × List Exchange) (edits : List Edit)
    (t : List Exchange) : Prop :=
  ∃ before content after, edits = before ++ .add content :: after ∧
    (editAll session.recorded before r s).1.stale = true ∧
    (editAll session.recorded before r s).2.2 = t

/-- Every mutation of a run was issued where nothing was unsettled, or began an addition by a stale
replica, or was there before. -/
theorem editAll_careful (session : Session σ) (hid : r.id = id)
    (hsettled : r.stale = false → unsettled id s.2 = false) (edits : List Edit) :
    (editAll session.recorded edits r s).1.id = id ∧
    ((editAll session.recorded edits r s).1.stale = false →
      unsettled id (editAll session.recorded edits r s).2.2 = false) ∧
    ∀ newer x rest, (editAll session.recorded edits r s).2.2 = newer ++ x :: rest →
      x.command.isMutation = true →
      unsettled id rest = false ∨ BegunStale session r s edits rest ∨
        ∃ newer', s.2 = newer' ++ x :: rest := by
  induction edits using List.reverseRecOn with
  | nil => exact ⟨hid, hsettled, fun newer x rest hsplit _ => Or.inr (Or.inr ⟨newer, hsplit⟩)⟩
  | append_singleton edits e ih =>
    obtain ⟨hid₁, hsettled₁, hmutations⟩ := ih
    rw [editAll_snoc]
    generalize hbefore : editAll session.recorded edits r s = w at hid₁ hsettled₁ hmutations
    rcases hrun : w.1.edit session.recorded e w.2 with ⟨answer, r', s'⟩
    -- what is in the transcript before the edit has been dealt with
    have holder : ∀ newer x rest, w.2.2 = newer ++ x :: rest → x.command.isMutation = true →
        unsettled id rest = false ∨ BegunStale session r s (edits ++ [e]) rest ∨
          ∃ newer', s.2 = newer' ++ x :: rest := by
      intro newer x rest hsplit hmutation
      rcases hmutations newer x rest hsplit hmutation with hnow | ⟨before, content, after, he, h⟩ |
        hold
      · exact Or.inl hnow
      · exact Or.inr (Or.inl ⟨before, content, after ++ [e], by rw [he]; simp, h⟩)
      · exact Or.inr (Or.inr hold)
    rcases edit_careful hrun hid₁ hsettled₁ with hcareful | ⟨hstale, ⟨content, rfl⟩, y, hcareful⟩
    · refine ⟨hcareful.sameId, hcareful.settled, fun newer x rest hsplit hmutation => ?_⟩
      rcases hcareful.follows.split hsplit hmutation with hnow | ⟨newer', hsplit'⟩
      · exact Or.inl hnow
      · exact holder newer' x rest hsplit' hmutation
    · refine ⟨hcareful.sameId, hcareful.settled, fun newer x rest hsplit hmutation => ?_⟩
      rcases hcareful.follows.split hsplit hmutation with hnow | ⟨newer', hsplit'⟩
      · exact Or.inl hnow
      · cases newer' with
        | nil =>
          obtain ⟨rfl, hrest⟩ := List.cons.inj hsplit'
          refine Or.inr (Or.inl ⟨edits, content, [], rfl, ?_, ?_⟩)
          · rw [hbefore]
            exact hstale
          · rw [hbefore]
            exact hrest
        | cons z newer' => exact holder newer' x rest (List.cons.inj hsplit').2 hmutation

/-- Reading records is looking. -/
theorem readAll_looks {slots : List Slot} {answer : Except Error (List Entry)}
    (h : readAll session.recorded id slots s = (answer, s'))
    (hs : ∀ x ∈ s.2, x.command.isMutation = false) : ∀ x ∈ s'.2, x.command.isMutation = false := by
  induction slots generalizing s answer with
  | nil =>
    cases h
    exact hs
  | cons slot slots ih =>
    have hread {answer : Except Device.Error Record} {s₁ : σ × List Exchange}
        (h : session.recorded.readRecord id slot s = (answer, s₁)) :
        ∀ x ∈ s₁.2, x.command.isMutation = false := by
      rw [(of_recorded h).2]
      exact List.forall_mem_cons.mpr ⟨rfl, hs⟩
    simp only [readAll] at h
    split at h
    · rename_i hrun
      cases h
      exact hread hrun
    · rename_i hrun
      split at h <;>
      · rename_i hrest
        cases h
        exact ih hrest (hread hrun)

/-- A replica that has been loaded is not stale, and nothing was mutated. -/
theorem load_looks {s : σ} {s₁ : σ × List Exchange}
    (h : load session.recorded name (s, []) = (.ok r, s₁)) :
    r.stale = false ∧ ∀ x ∈ s₁.2, x.command.isMutation = false := by
  unfold load at h
  split at h
  · cases h
  rename_i hid
  split at h
  · cases h
  rename_i htable
  split at h
  · cases h
  rename_i hread
  cases h
  refine ⟨rfl, readAll_looks hread ?_⟩
  rw [(of_recorded htable).2, (of_recorded hid).2]
  simp [Command.isMutation]

/-- **The table is fetched between two mutations.**  In the transcript of any edits, each of which
may fail at any of its commands, there is an accepted fetch of the slot table between a mutation
that was accepted and every later one; unless the later one begins the addition of a record by a
replica that was stale then. -/
theorem editAll_refreshed {s : σ} {s₁ : σ × List Exchange}
    (loaded : load session.recorded name (s, []) = (.ok r, s₁)) (edits : List Edit) :
    let (_, s') := editAll session.recorded edits r s₁
    ∀ newer second mid first older, s'.2 = newer ++ second :: (mid ++ first :: older) →
      first.command.isMutation = true → first.accepted = true → second.command.isMutation = true →
      ⟨.slotTable r.id, true⟩ ∈ mid ∨
      ∃ before content after, edits = before ++ .add content :: after ∧
        let (r₀, s₀) := editAll session.recorded before r s₁
        r₀.stale = true ∧ s₀.2 = mid ++ first :: older := by
  obtain ⟨-, hlooks⟩ := load_looks loaded
  obtain ⟨-, -, hmutations⟩ := editAll_careful session (r := r) (s := s₁) rfl
    (fun _ => unsettled_of_looks hlooks) edits
  intro newer second mid first older hsplit hfirst haccepted hsecond
  rcases hmutations newer second _ hsplit hsecond with hnow | hbegun | ⟨newer', hold⟩
  · exact Or.inl (fetch_mem hnow hfirst haccepted)
  · exact Or.inr hbegun
  · -- nothing was mutated when the replica was loaded
    have hlook := hlooks second (by rw [hold]; simp)
    rw [hsecond] at hlook
    cases hlook

/-- The table cannot be fetched behind an addition; the overwriting behind it fetches the table
first, and the one after that need not. -/
theorem editAll_refreshed_stale :
    let memo (u : UniqueId) : Record := ⟨"Memos", u, 0, ⟨#[1]⟩⟩
    let d : Device := { databases := [{ name := "Memos", records := Slots.numbered 0 [memo 1] }] }
    let session := (guarded "Memos" 1).refusing
    -- three commands of the loading, the addition, the fetch behind it not
    let plan := [false, false, false, false, true]
    let edits := [Edit.add (memo 0), .overwrite ⟨0, memo 1⟩ (memo 0), .delete ⟨0, memo 1⟩]
    ∃ r s₁, load session.recorded "Memos" ((d, plan), []) = (.ok r, s₁) ∧
      let (_, s') := editAll session.recorded edits r s₁
      ∀ newer second mid first older, s'.2 = newer ++ second :: (mid ++ first :: older) →
        first.command.isMutation = true → first.accepted = true →
        second.command.isMutation = true →
        ⟨.slotTable r.id, true⟩ ∈ mid ∨
        ∃ before content after, edits = before ++ .add content :: after ∧
          let (r₀, s₀) := editAll session.recorded before r s₁
          r₀.stale = true ∧ s₀.2 = mid ++ first :: older := by
  intro memo d session plan edits
  have hload : accepted (load session.recorded "Memos" ((d, plan), [])).1 = true := by
    decide +kernel
  obtain ⟨r, s₁, hload⟩ := exists_of_accepted hload
  exact ⟨r, s₁, hload, editAll_refreshed hload edits⟩

/-- **A stale replica adds a record without fetching the table.**  The table cannot be fetched
behind an addition, and the next addition is issued, and accepted, all the same. -/
theorem add_unrefreshed :
    let memo (u : UniqueId) : Record := ⟨"Memos", u, 0, ⟨#[1]⟩⟩
    let d : Device := { databases := [{ name := "Memos", records := Slots.empty }] }
    let session := (guarded "Memos" 1).refusing
    let plan := [false, false, false, true]
    ∃ r s₁, load session.recorded "Memos" ((d, plan), []) = (.ok r, s₁) ∧
      (editAll session.recorded [.add (memo 0), .add (memo 0)] r s₁).2.2
        = ⟨.slotTable r.id, true⟩ :: ⟨.addRecord r.id (memo 2), true⟩
          :: ([⟨.slotTable r.id, false⟩] ++ ⟨.addRecord r.id (memo 1), true⟩ :: s₁.2) := by
  intro memo d session plan
  obtain ⟨r, s₁, hload, h⟩ := exists_of_answersWith
    (load session.recorded "Memos" ((d, plan), [])) (fun r s₁ =>
      decide ((editAll session.recorded [.add (memo 0), .add (memo 0)] r s₁).2.2
        = ⟨.slotTable r.id, true⟩ :: ⟨.addRecord r.id (memo 2), true⟩
          :: ([⟨.slotTable r.id, false⟩] ++ ⟨.addRecord r.id (memo 1), true⟩ :: s₁.2)))
    (by decide +kernel)
  exact ⟨r, s₁, hload, of_decide_eq_true h⟩

end Palmtop.Replica
