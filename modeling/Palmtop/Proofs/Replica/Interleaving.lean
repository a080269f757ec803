import Palmtop.Proofs.Replica.Courses

/-! # Edits among the changes of another writer

Another session may change a database between the edits of a replica, in any way and unnoticed: an
edit takes the slot of its record from the table that was fetched behind the edit before.  Whatever
comes in between, an edit changes the record of its id and the record at that slot and no other
(`Touches`).  The slot can only be that of another record if one of the other writer's changes took
the record from it and no change has brought it back (`turns_known`).

So as long as the records of the table are where it has them, an edit changes the record it names or
none (`edit_touches`).  Another record that has come to stand at the slot is overwritten or deleted
in its place (`delete_displaced`).
-/
namespace Palmtop

namespace Slots

variable {α : Type} {s : Slots α} {slot : Slot} {old : α} {keep : α → Bool}

/-- What is at a slot is there once. -/
theorem snd_eq_of_mem {p : Slot × α} (hp : p ∈ s.pairs) (h : s.get? p.1 = some old) : p.2 = old :=
  Option.some.inj ((get?_eq_some_iff.mpr hp).symm.trans h)

/-- Putting a value over another matters only to who keeps one of the two. -/
theorem filter_values_insert (h : s.get? slot = some old) (hold : keep old = false) {a : α}
    (ha : keep a = false) : (s.insert slot a).values.filter keep = s.values.filter keep := by
  have hat : ∀ p ∈ s.pairs, p.1 = slot → p.2 = old := fun p hp he => snd_eq_of_mem hp (he ▸ h)
  rw [values, pairs_insert_of_get? h, values]
  generalize s.pairs = l at hat
  induction l with
  | nil => rfl
  | cons p rest ih =>
    have hrest := ih fun q hq => hat q (List.mem_cons_of_mem _ hq)
    by_cases he : p.1 = slot
    · have hp := hat p List.mem_cons_self he
      rw [List.map_cons, if_pos he, List.map_cons, List.map_cons,
        List.filter_cons_of_neg (by simp [ha]), List.filter_cons_of_neg (by simp [hp, hold]), hrest]
    · rw [List.map_cons, if_neg he, List.map_cons, List.map_cons, List.filter_cons, List.filter_cons,
        hrest]

/-- Erasing a value matters only to who keeps it. -/
theorem filter_values_erase (h : s.get? slot = some old) (hold : keep old = false) :
    (s.erase slot).values.filter keep = s.values.filter keep := by
  have hat : ∀ p ∈ s.pairs, p.1 = slot → p.2 = old := fun p hp he => snd_eq_of_mem hp (he ▸ h)
  rw [values, erase_pairs, values]
  generalize s.pairs = l at hat
  induction l with
  | nil => rfl
  | cons p rest ih =>
    have hrest := ih fun q hq => hat q (List.mem_cons_of_mem _ hq)
    by_cases he : p.1 = slot
    · have hp := hat p List.mem_cons_self he
      rw [List.filter_cons_of_neg (by simp [he]), List.map_cons,
        List.filter_cons_of_neg (by simp [hp, hold]), hrest]
    · rw [List.filter_cons_of_pos (by simpa using he), List.map_cons, List.map_cons,
        List.filter_cons, List.filter_cons, hrest]

end Slots

namespace Replica
open Device

variable {σ : Type} {session : Session σ} {name : String} {id : DatabaseId}
  {view : σ → Slots Record} {r r₁ : Replica} {s s₁ s' : σ × List Exchange}

/-! ## What an edit touches -/

/-- No record but those with these ids has been changed, removed or added. -/
def SameBut (us : List UniqueId) (before after : Slots Record) : Prop :=
  (after.values.filter (·.uniqueId ∉ us)).Perm (before.values.filter (·.uniqueId ∉ us))

theorem SameBut.refl (us : List UniqueId) (records : Slots Record) : SameBut us records records :=
  List.Perm.refl _

theorem SameBut.trans {us : List UniqueId} {a b c : Slots Record} (h : SameBut us a b)
    (h' : SameBut us b c) : SameBut us a c :=
  List.Perm.trans h' h

theorem SameBut.mono {us vs : List UniqueId} {a b : Slots Record} (h : SameBut us a b)
    (hsub : us ⊆ vs) : SameBut vs a b := by
  have hfilter (l : List Record) : (l.filter (·.uniqueId ∉ us)).filter (·.uniqueId ∉ vs)
      = l.filter (·.uniqueId ∉ vs) := by
    rw [List.filter_filter]
    refine List.filter_congr fun x _ => ?_
    by_cases hx : x.uniqueId ∈ us
    · simp [hsub hx]
    · simp [hx]
  have h := h.filter (·.uniqueId ∉ vs)
  rwa [hfilter, hfilter] at h

/-- How an edit led from one state to another, when only records of these ids may have been touched:
behind it the replica is stale, or has a table just fetched, or knows what it knew before, and no
record has changed. -/
structure Touches (view : σ → Slots Record) (us : List UniqueId) (r : Replica)
    (s : σ × List Exchange) (after : Replica × σ × List Exchange) : Prop where
  sameName : after.1.name = r.name
  sameId : after.1.id = r.id
  records : SameBut us (view s.1) (view after.2.1)
  table : after.1.stale = true ∨ after.1.table.ids = (view after.2.1).map (·.uniqueId) ∨
    (r.stale = false ∧ after.1.table.ids = r.table.ids ∧ view after.2.1 = view s.1)

/-- A replica that knows what it knew before. -/
theorem Touches.of_same (us : List UniqueId) (hname : r₁.name = r.name) (hid : r₁.id = r.id)
    (hstale : r₁.stale = r.stale) (hids : r₁.table.ids = r.table.ids) (hv : view s'.1 = view s.1) :
    Touches view us r s (r₁, s') where
  sameName := hname
  sameId := hid
  records := hv ▸ SameBut.refl us _
  table := by
    cases hs : r.stale with
    | true => exact Or.inl (hstale.trans hs)
    | false => exact Or.inr (Or.inr ⟨rfl, hids, hv⟩)

theorem Touches.of_refresh (hosts : Hosts session name id view) (hid : r₁.id = id)
    {us : List UniqueId} (hname : r₁.name = r.name) (hsame : r₁.id = r.id)
    (hrecords : SameBut us (view s.1) (view s₁.1)) :
    Touches view us r s (r₁.refresh session.recorded s₁).2 := by
  rcases refresh_cases hosts hid s₁ with ⟨e, s', hrun, hv, -⟩ | ⟨table, s', hrun, hv, ht⟩
  · rw [hrun]
    exact ⟨hname, hsame, hv ▸ hrecords, Or.inl rfl⟩
  · rw [hrun]
    exact ⟨hname, hsame, hv ▸ hrecords, Or.inr (Or.inl ht)⟩

/-- Whatever has become of the entries. -/
theorem Touches.with_entries {us : List UniqueId} {r' : Replica} (h : Touches view us r s (r', s'))
    (entries : List Entry) : Touches view us r s ({ r' with entries }, s') :=
  ⟨h.sameName, h.sameId, h.records, h.table⟩

theorem Touches.trans {us : List UniqueId} {after : Replica × σ × List Exchange}
    (h : Touches view us r s (r₁, s₁)) (h' : Touches view us r₁ s₁ after) :
    Touches view us r s after where
  sameName := h'.sameName.trans h.sameName
  sameId := h'.sameId.trans h.sameId
  records := h.records.trans h'.records
  table := by
    rcases h'.table with hstale | hfresh | ⟨hnot, hids, hv⟩
    · exact Or.inl hstale
    · exact Or.inr (Or.inl hfresh)
    · rcases h.table with hstale | hfresh | ⟨hnot', hids', hv'⟩
      · rw [hnot] at hstale
        cases hstale
      · exact Or.inr (Or.inl (by rw [hids, hv, hfresh]))
      · exact Or.inr (Or.inr ⟨hnot', hids.trans hids', hv.trans hv'⟩)

theorem Touches.mono {us vs : List UniqueId} {after : Replica × σ × List Exchange}
    (h : Touches view us r s after) (hsub : us ⊆ vs) : Touches view vs r s after :=
  ⟨h.sameName, h.sameId, h.records.mono hsub, h.table⟩

/-- A record is settled by a fetch. -/
theorem settle_snd (u : UniqueId) (s : σ × List Exchange) :
    (r.settle session.recorded u s).2 = (r.refresh session.recorded s).2 := by
  unfold settle
  rcases r.refresh session.recorded s with ⟨e | _, r', s'⟩
  · rfl
  · cases hslot : r'.table.slotOf? u <;> simp [hslot]

theorem Touches.of_settle (hosts : Hosts session name id view) (hid : r₁.id = id)
    {us : List UniqueId} (hname : r₁.name = r.name) (hsame : r₁.id = r.id)
    (hrecords : SameBut us (view s.1) (view s₁.1)) (u : UniqueId) :
    Touches view us r s (r₁.settle session.recorded u s₁).2 := by
  rw [settle_snd]
  exact Touches.of_refresh hosts hid hname hsame hrecords

/-! ## Mutations -/

theorem sameBut_written (hosts : Hosts session name id view) {x : Record} {slot : Slot}
    (hdb : x.database = name) (hrun : session.recorded.writeRecord id slot x s = (.ok (), s')) :
    ∃ old, (view s.1).get? slot = some old ∧
      SameBut [x.uniqueId, old.uniqueId] (view s.1) (view s'.1) := by
  obtain ⟨⟨old, hold⟩, hperm⟩ := hosts.recorded.writeRecord hdb hrun
  refine ⟨old, hold, (hperm.filter _).trans (List.Perm.of_eq ?_)⟩
  exact Slots.filter_values_insert hold (by simp) (by simp)

theorem sameBut_deleted (hosts : Hosts session name id view) {slot : Slot}
    (hrun : session.recorded.deleteRecord id slot s = (.ok (), s')) :
    ∃ old, (view s.1).get? slot = some old ∧ SameBut [old.uniqueId] (view s.1) (view s'.1) := by
  obtain ⟨⟨old, hold⟩, hperm⟩ := hosts.recorded.deleteRecord hrun
  refine ⟨old, hold, (hperm.filter _).trans (List.Perm.of_eq ?_)⟩
  exact Slots.filter_values_erase hold (by simp)

theorem sameBut_added (hosts : Hosts session name id view) {x : Record} (hdb : x.database = name)
    (hrun : session.recorded.addRecord id x s = (.ok (), s')) :
    SameBut [x.uniqueId] (view s.1) (view s'.1) := by
  obtain ⟨-, hperm⟩ := hosts.recorded.addRecord hdb hrun
  refine (hperm.filter _).trans (List.Perm.of_eq ?_)
  exact List.filter_cons_of_neg (by simp)

theorem add_touches (hosts : Hosts session name id view) (hname : r.name = name) (hid : r.id = id)
    (content : Record) (s : σ × List Exchange) :
    Touches view [r.table.allocate.1] r s (r.add session.recorded content s).2 := by
  subst hid
  simp only [add]
  generalize hr₁ : ({ r with table := r.table.allocate.2 } : Replica) = r₁
  have hid : r₁.id = r.id := by rw [← hr₁]
  have hsame : r₁.name = r.name := by rw [← hr₁]
  have hdb : (r₁.ownRecord r.table.allocate.1 content).database = name := hsame.trans hname
  rcases hadd : session.recorded.addRecord r.id (r₁.ownRecord r.table.allocate.1 content) s with
    ⟨e | _, s₁⟩
  · exact .of_same _ hsame hid (by rw [← hr₁]) (by rw [← hr₁]; rfl) (hosts.recorded.refused hadd)
  · have htouches := Touches.of_settle hosts hid hsame hid (sameBut_added hosts hdb hadd)
      r.table.allocate.1
    simp only
    rcases hsettle : r₁.settle session.recorded r.table.allocate.1 s₁ with ⟨e | settled, r', s'⟩ <;>
    · rw [hsettle] at htouches
      exact htouches.with_entries _

/-- Overwriting what is at a slot, there is a record there that may have another id. -/
theorem overwriteInPlace_touches (hosts : Hosts session name id view) (hid : r.id = id)
    {x : Record} (hdb : x.database = name) (slot : Slot) (s : σ × List Exchange) :
    Touches view [] r s (r.overwriteInPlace session.recorded slot x s).2 ∨
      ∃ old, (view s.1).get? slot = some old ∧
        Touches view [x.uniqueId, old.uniqueId] r s
          (r.overwriteInPlace session.recorded slot x s).2 := by
  subst hid
  simp only [overwriteInPlace]
  rcases hwrite : session.recorded.writeRecord r.id slot x s with ⟨e | _, s₁⟩
  · exact Or.inl (.of_same _ rfl rfl rfl rfl (hosts.recorded.refused hwrite))
  · obtain ⟨old, hold, hsame⟩ := sameBut_written hosts hdb hwrite
    refine Or.inr ⟨old, hold, ?_⟩
    have htouches := Touches.of_settle (r := r) hosts rfl rfl rfl hsame x.uniqueId
    simp only
    rcases hsettle : r.settle session.recorded x.uniqueId s₁ with ⟨e | settled, r', s'⟩ <;>
    · rw [hsettle] at htouches
      exact htouches.with_entries _

theorem overwriteByReplacing_touches (hosts : Hosts session name id view) (hid : r.id = id)
    {x : Record} (hdb : x.database = name) (slot : Slot) (s : σ × List Exchange) :
    Touches view [] r s (r.overwriteByReplacing session.recorded slot x s).2 ∨
      ∃ old, (view s.1).get? slot = some old ∧
        Touches view [x.uniqueId, old.uniqueId] r s
          (r.overwriteByReplacing session.recorded slot x s).2 := by
  subst hid
  simp only [overwriteByReplacing]
  rcases hdelete : session.recorded.deleteRecord r.id slot s with ⟨e | _, s₁⟩
  · exact Or.inl (.of_same _ rfl rfl rfl rfl (hosts.recorded.refused hdelete))
  obtain ⟨old, hold, hsame⟩ := sameBut_deleted hosts hdelete
  have hsame := hsame.mono (List.subset_cons_self x.uniqueId [old.uniqueId])
  refine Or.inr ⟨old, hold, ?_⟩
  simp only
  generalize hr₁ : ({ r with entries := r.entries.eraseP (·.uniqueId == x.uniqueId) } : Replica)
    = r₁
  have hid : r₁.id = r.id := by rw [← hr₁]
  have hfetched := Touches.of_refresh hosts hid (by rw [← hr₁]) hid hsame
  rcases hrun : r₁.refresh session.recorded s₁ with ⟨e | _, r₂, s₂⟩
  · rw [hrun] at hfetched
    exact hfetched
  rw [hrun] at hfetched
  have hid₂ := hfetched.sameId
  simp only at hid₂ ⊢
  rcases hadd : session.recorded.addRecord r₂.id x s₂ with ⟨e | _, s₃⟩
  · exact hfetched.trans (.of_same _ rfl rfl rfl rfl (hosts.recorded.refused hadd))
  · have hadded := (sameBut_added hosts hdb (hid₂ ▸ hadd)).mono
      (List.cons_subset_cons x.uniqueId (List.nil_subset [old.uniqueId]))
    have hsettled := Touches.of_settle hosts hid₂ hfetched.sameName hid₂
      (hfetched.records.trans hadded) x.uniqueId
    simp only
    rcases hsettle : r₂.settle session.recorded x.uniqueId s₃ with ⟨e | settled, r', s'⟩ <;>
    · rw [hsettle] at hsettled
      exact hsettled.with_entries _

/-! ## Edits of an entry -/

/-- The replica takes this slot for that of the record with this id, and another record is there. -/
structure Misled (view : σ → Slots Record) (r : Replica) (s : σ × List Exchange) (u : UniqueId)
    (slot : Slot) (other : Record) : Prop where
  fetched : r.stale = false
  listed : r.table.slotOf? u = some slot
  found : (view s.1).get? slot = some other
  differs : other.uniqueId ≠ u

/-- What an edit of the record with this id may touch. -/
def TouchesOne (view : σ → Slots Record) (u : UniqueId) (r : Replica) (s : σ × List Exchange)
    (after : Replica × σ × List Exchange) : Prop :=
  Touches view [u] r s after ∨
    ∃ slot other, Misled view r s u slot other ∧ Touches view [u, other.uniqueId] r s after

/-- The entry an edit is of. -/
def Edit.subject? : Edit → Option Entry
  | .add _ => none
  | .overwrite entry _ => some entry
  | .delete entry => some entry

/-- The slot found is that of the table just fetched, or that of the table there was. -/
theorem currentSlot_touches (hosts : Hosts session name id view) (hid : r.id = id) (u : UniqueId)
    (s : σ × List Exchange) :
    ∃ answer r' s', r.currentSlot session.recorded u s = (answer, r', s') ∧
      Touches view [] r s (r', s') ∧ ∀ slot, answer = .ok slot →
        r'.table.slotOf? u = some slot ∧
          (r' = r ∧ s' = s ∧ r.stale = false ∨ r'.table.ids = (view s'.1).map (·.uniqueId)) := by
  cases hs : r.stale with
  | false =>
    cases hslot : r.table.slotOf? u with
    | none =>
      refine ⟨.error (.staleEntry u), r, s, by simp [currentSlot, hs, hslot],
        .of_same _ rfl rfl rfl rfl rfl, fun _ hx => ?_⟩
      cases hx
    | some slot =>
      refine ⟨.ok slot, r, s, by simp [currentSlot, hs, hslot], .of_same _ rfl rfl rfl rfl rfl,
        fun _ hx => ?_⟩
      obtain rfl := Except.ok.inj hx
      exact ⟨hslot, Or.inl ⟨rfl, rfl, rfl⟩⟩
  | true =>
    have htouches := Touches.of_refresh hosts hid rfl rfl (SameBut.refl [] (view s.1))
    rcases refresh_cases hosts hid s with ⟨e, s', hrun, hv, -⟩ | ⟨table, s', hrun, hv, ht⟩
    · rw [hrun] at htouches
      refine ⟨.error e, _, s', by simp [currentSlot, hs, hrun], htouches, fun _ hx => ?_⟩
      cases hx
    · rw [hrun] at htouches
      cases hslot : (r.moved table).table.slotOf? u with
      | none =>
        refine ⟨.error (.staleEntry u), _, s', by simp [currentSlot, hs, hrun, hslot], htouches,
          fun _ hx => ?_⟩
        cases hx
      | some slot =>
        refine ⟨.ok slot, _, s', by simp [currentSlot, hs, hrun, hslot], htouches, fun _ hx => ?_⟩
        obtain rfl := Except.ok.inj hx
        exact ⟨hslot, Or.inr ht⟩

/-- A mutation at the slot that was found touches the record of the id, unless the replica was
misled. -/
theorem TouchesOne.of_found {u : UniqueId} {slot : Slot} {after : Replica × σ × List Exchange}
    (look : Touches view [] r s (r₁, s₁)) (hslot : r₁.table.slotOf? u = some slot)
    (hfound : r₁ = r ∧ s₁ = s ∧ r.stale = false ∨ r₁.table.ids = (view s₁.1).map (·.uniqueId))
    (h : Touches view [] r₁ s₁ after ∨ ∃ old, (view s₁.1).get? slot = some old ∧
      Touches view [u, old.uniqueId] r₁ s₁ after) : TouchesOne view u r s after := by
  rcases h with hnone | ⟨old, hold, htouches⟩
  · exact Or.inl ((look.trans hnone).mono (List.nil_subset _))
  have hall := (look.mono (List.nil_subset _)).trans htouches
  by_cases hid : old.uniqueId = u
  · exact Or.inl (hall.mono (by simp [hid]))
  · rcases hfound with ⟨rfl, rfl, hs⟩ | hids
    · exact Or.inr ⟨slot, old, ⟨hs, hslot, hold, hid⟩, hall⟩
    · -- in the table just fetched the slot is that of the record
      have hat := SlotTable.slotOf?_eq_some hslot
      rw [hids] at hat
      obtain ⟨x, hx, hxid⟩ := Slots.get?_map_eq_some hat
      rw [hold] at hx
      exact absurd (Option.some.inj hx ▸ hxid) hid

theorem overwrite_touches (hosts : Hosts session name id view) (hname : r.name = name)
    (hid : r.id = id) (entry : Entry) (content : Record) (s : σ × List Exchange) :
    TouchesOne view entry.uniqueId r s (r.overwrite session.recorded entry content s).2 := by
  obtain ⟨answer, r₁, s₁, hcurrent, hlook, hfound⟩ :=
    currentSlot_touches hosts hid entry.uniqueId s
  simp only [overwrite, hcurrent]
  rcases answer with e | slot
  · exact Or.inl (hlook.mono (List.nil_subset _))
  obtain ⟨hslot, hfound⟩ := hfound slot rfl
  refine TouchesOne.of_found hlook hslot hfound ?_
  simp only
  split
  · exact overwriteInPlace_touches (x := r.ownRecord entry.uniqueId content) hosts
      (hlook.sameId.trans hid) hname slot s₁
  · exact overwriteByReplacing_touches (x := r.ownRecord entry.uniqueId content) hosts
      (hlook.sameId.trans hid) hname slot s₁

theorem delete_touches (hosts : Hosts session name id view) (hid : r.id = id) (entry : Entry)
    (s : σ × List Exchange) :
    TouchesOne view entry.uniqueId r s (r.delete session.recorded entry s).2 := by
  obtain ⟨answer, r₁, s₁, hcurrent, hlook, hfound⟩ :=
    currentSlot_touches hosts hid entry.uniqueId s
  simp only [delete, hcurrent]
  rcases answer with e | slot
  · exact Or.inl (hlook.mono (List.nil_subset _))
  obtain ⟨hslot, hfound⟩ := hfound slot rfl
  refine TouchesOne.of_found hlook hslot hfound ?_
  simp only
  rcases hdelete : session.recorded.deleteRecord r₁.id slot s₁ with ⟨e | _, s₂⟩
  · exact Or.inl (.of_same _ rfl rfl rfl rfl (hosts.recorded.refused hdelete))
  · obtain ⟨old, hold, hsame⟩ := sameBut_deleted hosts ((hlook.sameId.trans hid) ▸ hdelete)
    refine Or.inr ⟨old, hold, ?_⟩
    simp only
    generalize hr₂ : ({ r₁ with entries := r₁.entries.filter (·.uniqueId != entry.uniqueId) } :
      Replica) = r₂
    have hid₂ : r₂.id = r₁.id := by rw [← hr₂]
    exact Touches.of_refresh hosts (hid₂.trans (hlook.sameId.trans hid)) (by rw [← hr₂]) hid₂
      (hsame.mono (List.subset_cons_self _ _))

theorem edit_touchesOne (hosts : Hosts session name id view) (hname : r.name = name)
    (hid : r.id = id) {e : Edit} {entry : Entry} (he : e.subject? = some entry)
    (s : σ × List Exchange) :
    TouchesOne view entry.uniqueId r s (r.edit session.recorded e s).2 := by
  cases e with
  | add content => cases he
  | overwrite old content =>
    obtain rfl := Option.some.inj he
    exact overwrite_touches hosts hname hid old content s
  | delete old =>
    obtain rfl := Option.some.inj he
    exact delete_touches hosts hid old s

theorem edit_touches_some (hosts : Hosts session name id view) (hname : r.name = name)
    (hid : r.id = id) (e : Edit) (s : σ × List Exchange) :
    ∃ us, Touches view us r s (r.edit session.recorded e s).2 := by
  cases he : e.subject? with
  | none =>
    cases e with
    | add content => exact ⟨_, add_touches hosts hname hid content s⟩
    | overwrite => cases he
    | delete => cases he
  | some entry =>
    rcases edit_touchesOne hosts hname hid he s with h | ⟨_, _, -, h⟩
    · exact ⟨_, h⟩
    · exact ⟨_, h⟩

/-! ## Turns -/

/-- What happens to a database: an edit through the replica, or a change by another writer. -/
inductive Turn (σ : Type) where
  | own (e : Edit)
  | foreign (change : σ → σ)

/-- Runs a turn; the replica learns nothing of a foreign change. -/
def turn (session : Session σ) (w : Replica × σ × List Exchange) :
    Turn σ → Replica × σ × List Exchange
  | .own e => (w.1.edit session.recorded e w.2).2
  | .foreign change => (w.1, change w.2.1, w.2.2)

/-- Runs turns one after another. -/
def turns (session : Session σ) (w : Replica × σ × List Exchange) (history : List (Turn σ)) :
    Replica × σ × List Exchange :=
  history.foldl (turn session) w

/-- The id of the record at a slot. -/
def idAt (view : σ → Slots Record) (w : Replica × σ × List Exchange) (slot : Slot) :
    Option UniqueId :=
  ((view w.2.1).get? slot).map (·.uniqueId)

/-- The record with this id was at this slot until a foreign change took it away, and has not been
there since. -/
def Displaced (session : Session σ) (view : σ → Slots Record) (w : Replica × σ × List Exchange)
    (history : List (Turn σ)) (slot : Slot) (u : UniqueId) : Prop :=
  ∃ n change, history[n]? = some (.foreign change) ∧
    idAt view (turns session w (history.take n)) slot = some u ∧
    ∀ m, n < m → m ≤ history.length →
      idAt view (turns session w (history.take m)) slot ≠ some u


section displaced
variable {w : Replica × σ × List Exchange} {history : List (Turn σ)} {slot : Slot} {u : UniqueId}

theorem turns_snoc (session : Session σ) (w : Replica × σ × List Exchange)
    (history : List (Turn σ)) (t : Turn σ) :
    turns session w (history ++ [t]) = turn session (turns session w history) t :=
  List.foldl_concat ..

/-- A record stays displaced as long as it is not brought back. -/
theorem Displaced.snoc (h : Displaced session view w history slot u) {t : Turn σ}
    (hnow : idAt view (turns session w (history ++ [t])) slot ≠ some u) :
    Displaced session view w (history ++ [t]) slot u := by
  obtain ⟨n, change, hn, hat, hsince⟩ := h
  have hlt : n < history.length := (List.getElem?_eq_some_iff.mp hn).1
  refine ⟨n, change, by rw [List.getElem?_append_left hlt, hn], ?_, fun m hm hle => ?_⟩
  · rwa [List.take_append_of_le_length (Nat.le_of_lt hlt)]
  · by_cases hlast : m ≤ history.length
    · rw [List.take_append_of_le_length hlast]
      exact hsince m hm hlast
    · rw [List.take_of_length_le (by rw [List.length_append, List.length_singleton]; omega)]
      exact hnow

/-- A foreign change displaces what is at a slot before it and is not behind it. -/
theorem Displaced.of_foreign (hat : idAt view (turns session w history) slot = some u)
    {change : σ → σ}
    (hnow : idAt view (turns session w (history ++ [.foreign change])) slot ≠ some u) :
    Displaced session view w (history ++ [.foreign change]) slot u := by
  refine ⟨history.length, change, by simp, by simpa using hat, fun m hm hle => ?_⟩
  rw [List.length_append, List.length_singleton] at hle
  rwa [List.take_of_length_le (by rw [List.length_append, List.length_singleton]; omega)]

end displaced

/-- What the replica knows behind these turns: unless it is stale, each record of its table is where
the table has it, or has been displaced. -/
structure Known (session : Session σ) (name : String) (id : DatabaseId) (view : σ → Slots Record)
    (w : Replica × σ × List Exchange) (history : List (Turn σ)) : Prop where
  sameName : (turns session w history).1.name = name
  sameId : (turns session w history).1.id = id
  table : (turns session w history).1.stale = false →
    ∀ slot u, (turns session w history).1.table.ids.get? slot = some u →
      idAt view (turns session w history) slot = some u ∨ Displaced session view w history slot u

/-- The table of a database, whoever has changed it before. -/
theorem idAt_of_ids {w : Replica × σ × List Exchange}
    (h : w.1.table.ids = (view w.2.1).map (·.uniqueId)) {slot : Slot} {u : UniqueId}
    (hu : w.1.table.ids.get? slot = some u) : idAt view w slot = some u := by
  rw [h] at hu
  obtain ⟨x, hx, rfl⟩ := Slots.get?_map_eq_some hu
  rw [idAt, hx]
  rfl

theorem turns_known (hosts : Hosts session name id view) {w : Replica × σ × List Exchange}
    (hname : w.1.name = name) (hid : w.1.id = id)
    (htable : w.1.table.ids = (view w.2.1).map (·.uniqueId)) (history : List (Turn σ)) :
    Known session name id view w history := by
  induction history using List.reverseRecOn with
  | nil => exact ⟨hname, hid, fun _ slot u hu => Or.inl (idAt_of_ids htable hu)⟩
  | append_singleton history t ih =>
    cases t with
    | own e =>
      obtain ⟨us, htouches⟩ :=
        edit_touches_some hosts ih.sameName ih.sameId e (turns session w history).2
      have hsnoc : turns session w (history ++ [.own e]) = ((turns session w history).1.edit
        session.recorded e (turns session w history).2).2 := turns_snoc ..
      rw [← hsnoc] at htouches
      refine ⟨htouches.sameName.trans ih.sameName, htouches.sameId.trans ih.sameId,
        fun hfresh slot u hu => ?_⟩
      rcases htouches.table with hstale | hids | ⟨hbefore, hids, hv⟩
      · rw [hfresh] at hstale
        cases hstale
      · exact Or.inl (idAt_of_ids hids hu)
      · -- nothing has changed, neither the table nor the records
        have hsame : idAt view (turns session w (history ++ [.own e])) slot
            = idAt view (turns session w history) slot := by
          rw [idAt, idAt, hv]
        rw [hids] at hu
        rcases ih.table hbefore slot u hu with hat | hdisplaced
        · exact Or.inl (hsame.trans hat)
        · by_cases hnow : idAt view (turns session w (history ++ [.own e])) slot = some u
          · exact Or.inl hnow
          · exact Or.inr (hdisplaced.snoc hnow)
    | foreign change =>
      have hsnoc := turns_snoc session w history (.foreign change)
      have hreplica : (turns session w (history ++ [.foreign change])).1
          = (turns session w history).1 := by rw [hsnoc]; rfl
      refine ⟨hreplica ▸ ih.sameName, hreplica ▸ ih.sameId, fun hfresh slot u hu => ?_⟩
      rw [hreplica] at hfresh hu
      by_cases hnow : idAt view (turns session w (history ++ [.foreign change])) slot = some u
      · exact Or.inl hnow
      · rcases ih.table hfresh slot u hu with hat | hdisplaced
        · exact Or.inr (.of_foreign hat hnow)
        · exact Or.inr (hdisplaced.snoc hnow)

/-- **An edit touches the record it names, unless that has been displaced.**  A replica has been
loaded, and behind that it was edited, and the database changed by others, in any order.  An entry
is then overwritten or deleted.  No record is changed, removed or added but that of the entry's id;
unless the replica is not stale, has for the entry's record a slot from which another writer has
taken it, and another record has come to be there: this is touched in its place. -/
theorem edit_touches (hosts : Hosts session name id view) {s : σ} {s₁ : σ × List Exchange}
    (loaded : load session.recorded name (s, []) = (.ok r, s₁)) (history : List (Turn σ))
    {e : Edit} {entry : Entry} (edited : e.subject? = some entry) :
    let (r', s') := turns session (r, s₁) history
    let (_, after) := (r'.edit session.recorded e s').2
    SameBut [entry.uniqueId] (view s'.1) (view after.1) ∨
      ∃ slot other, Misled view r' s' entry.uniqueId slot other ∧
        Displaced session view (r, s₁) history slot entry.uniqueId ∧
        SameBut [entry.uniqueId, other.uniqueId] (view s'.1) (view after.1) := by
  obtain ⟨hname, hid, -, -, htable, -⟩ := load_spec hosts loaded
  have hknown := turns_known hosts (w := (r, s₁)) hname hid htable history
  rcases hturns : turns session (r, s₁) history with ⟨r', s'⟩
  obtain ⟨hname', hid', hlisted⟩ := hknown
  simp only [hturns] at hname' hid' hlisted
  rcases edit_touchesOne hosts hname' hid' edited s' with hone | ⟨slot, other, hmisled, htwo⟩
  · exact Or.inl hone.records
  · refine Or.inr ⟨slot, other, hmisled, ?_, htwo.records⟩
    have hat := hlisted hmisled.fetched slot _ (SlotTable.slotOf?_eq_some hmisled.listed)
    refine hat.resolve_left fun hat => hmisled.differs ?_
    rw [idAt, hmisled.found] at hat
    exact Option.some.inj hat

/-- The record of the entry has been deleted by another writer, who has added one since; the replica
has added another in between, and so has fetched the table. -/
theorem edit_touches_interleaved :
    let memo (u : UniqueId) : Record := ⟨"Memos", u, 0, ⟨#[1]⟩⟩
    let d : Device :=
      { databases := [{ name := "Memos", records := Slots.numbered 0 [memo 1, memo 2] }] }
    let session := guarded "Memos" 1
    let history : List (Turn Device) :=
      [.foreign fun d => (d.execute (.deleteRecord 1 1)).2, .own (.add (memo 0)),
        .foreign fun d => (d.execute (.addRecord 1 (memo 9))).2]
    ∃ r s₁, load session.recorded "Memos" (d, []) = (.ok r, s₁) ∧
      let (r', s') := turns session (r, s₁) history
      let (_, after) := (r'.edit session.recorded (.delete ⟨1, memo 2⟩) s').2
      SameBut [2] (recordsAt 1 s'.1) (recordsAt 1 after.1) ∨
        ∃ slot other, Misled (recordsAt 1) r' s' 2 slot other ∧
          Displaced session (recordsAt 1) (r, s₁) history slot 2 ∧
          SameBut [2, other.uniqueId] (recordsAt 1 s'.1) (recordsAt 1 after.1) := by
  intro memo d session history
  have hload : accepted (load session.recorded "Memos" (d, [])).1 = true := by decide +kernel
  obtain ⟨r, s₁, hload⟩ := exists_of_accepted hload
  have hentry : (Edit.delete ⟨1, memo 2⟩).subject? = some ⟨1, memo 2⟩ := rfl
  exact ⟨r, s₁, hload, edit_touches (hosts_guarded "Memos" 1) hload history hentry⟩

/-- **Another record can be deleted in place of one that was displaced**: another writer deletes the
record of the entry and adds one, which comes to be at the same slot. -/
theorem delete_displaced :
    let memo (u : UniqueId) : Record := ⟨"Memos", u, 0, ⟨#[1]⟩⟩
    let d : Device :=
      { databases := [{ name := "Memos", records := Slots.numbered 0 [memo 1, memo 2] }] }
    let session := guarded "Memos" 1
    let history : List (Turn Device) :=
      [.foreign fun d => (d.execute (.deleteRecord 1 1)).2,
        .foreign fun d => (d.execute (.addRecord 1 (memo 9))).2]
    ∃ r s₁, load session.recorded "Memos" (d, []) = (.ok r, s₁) ∧
      ∃ r₂ s₂, turns session (r, s₁) history = (r₂, s₂) ∧
        ∃ r₃ s₃, r₂.delete session.recorded ⟨1, memo 2⟩ s₂ = (.ok (), r₃, s₃) ∧
          memo 9 ∈ (recordsAt 1 s₂.1).values ∧ memo 9 ∉ (recordsAt 1 s₃.1).values := by
  intro memo d session history
  obtain ⟨r, s₁, hload, h⟩ := exists_of_answersWith
    (load session.recorded "Memos" (d, [])) (fun r s₁ =>
      let w := turns session (r, s₁) history
      answersWith (w.1.delete session.recorded ⟨1, memo 2⟩ w.2) fun _ after =>
        decide (memo 9 ∈ (recordsAt 1 w.2.1).values ∧ memo 9 ∉ (recordsAt 1 after.2.1).values))
    (by decide +kernel)
  obtain ⟨⟨⟩, ⟨r₃, s₃⟩, hdelete, h⟩ := exists_of_answersWith _ _ h
  exact ⟨r, s₁, hload, _, _, rfl, r₃, s₃, hdelete, of_decide_eq_true h⟩

end Replica

end Palmtop
