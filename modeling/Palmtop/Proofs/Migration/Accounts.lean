import Palmtop.Proofs.Migration.Phases
import Palmtop.Proofs.Migration.Progress

/-! # What a migration accounts for

Along a run, the numbers in the report are kept up with what happens: the number of records in the
archive with the records that it accepts (`Run.Accounts`), the number of records restored with those
that the destination stores and no other device does (`Run.Balances`).  The path of the archive is
reported from the turn on at which the archive is finished (`Run.ReportsPath`).
-/
namespace Palmtop.Migration.Run

variable {r r' : Run} {sessions : Device.Bus.Sessions} {kept : List Record}

theorem Stirs.progress (h : r.Stirs r') : r'.stage.progress = r.stage.progress := h.stage.progress

/-! ## Records in the archive -/

/-- The report, as far as it goes, says how many records the archive accepted. -/
def Accounts (r : Run) (kept : List Record) : Prop :=
  match r.stage.progress with
  | .before => r.report = {} ∧ kept = []
  | .backingUp b | .failing b => r.report = {} ∧ b.processed = kept.length
  | .between => r.report.backedUp = kept.length ∧ r.report.skipped = []
  | .restoring _ | .ended => r.report.backedUp = kept.length

theorem Progresses.accounts (h : r.Progresses sessions r') (hr : r.Accounts kept) :
    r'.Accounts (kept ++ (r.archives? sessions).toList) := by
  unfold Accounts at hr ⊢
  cases h with
  | stays progress report files archived =>
    rw [append_archives? archived, progress, report]
    exact hr
  | stops idle progress report files archived =>
    rw [append_archives? archived, progress]
    dsimp only
    rw [report]
    generalize r.stage.progress = p at hr idle
    cases p with
    | before =>
      obtain ⟨hreport, rfl⟩ := hr
      rw [hreport]
      rfl
    | backingUp | failing => cases idle
    | between => exact hr.1
    | restoring | ended => exact hr
  | opensBackup before progress _ _ fresh _ report archived =>
    rw [before] at hr
    obtain ⟨hreport, rfl⟩ := hr
    rw [progress, archived]
    exact ⟨report.trans hreport, fresh⟩
  | passes before progress _ report _ archived =>
    rw [before] at hr
    rw [append_archives? archived, progress]
    exact ⟨report.trans hr.1, hr.2⟩
  | archives before progress _ _ report _ archived =>
    rw [before] at hr
    rw [progress, archived, Option.toList_some]
    refine ⟨report.trans hr.1, ?_⟩
    rw [List.length_append, List.length_singleton, ← hr.2]
  | fails before progress processed report archived =>
    rw [before] at hr
    rw [append_archives? archived, progress]
    exact ⟨report.trans hr.1, processed.trans hr.2⟩
  | closes stage progress report _ archived =>
    rw [stage] at hr
    rw [append_archives? archived, progress]
    dsimp only
    rw [report]
    exact ⟨hr.2, congrArg Report.skipped hr.1⟩
  | breaksOff before progress report archived =>
    rw [before] at hr
    rw [append_archives? archived, progress]
    dsimp only
    rw [report]
    exact hr.2
  | opensRestore before progress _ _ _ _ report _ archived =>
    rw [before] at hr
    rw [append_archives? archived, progress]
    dsimp only
    rw [report]
    exact hr.1
  | moves before progress _ _ report _ archived | givesUp before progress _ _ _ report _ archived =>
    rw [before] at hr
    rw [append_archives? archived, progress]
    dsimp only
    rw [report]
    exact hr

/-- Only the worker puts records into the archive. -/
theorem archivesAt?_of_ne_work {t : Turn} (ht : ∀ refusals, t ≠ .work refusals) :
    r.archivesAt? t = none := by
  cases t with
  | work refusals => exact absurd rfl (ht refusals)
  | incident | reply | leave => rfl

theorem Accounts.turn (h : r.Accounts kept) (t : Turn) :
    (r.turn t).Accounts (kept ++ (r.archivesAt? t).toList) := by
  rcases r.turn_cases t with ⟨refusals, rfl, hmoves⟩ | ⟨ht, hstirs⟩
  · exact hmoves.progresses.accounts h
  · rw [archivesAt?_of_ne_work ht, Option.toList_none, List.append_nil]
    unfold Accounts at h ⊢
    rw [hstirs.progress, hstirs.report]
    exact h

theorem Accounts.after (h : r.Accounts kept) (turns : List Turn) :
    (r.after turns).Accounts (kept ++ r.archived turns) := by
  induction turns generalizing r kept with
  | nil => exact (List.append_nil kept).symm ▸ h
  | cons t turns ih =>
    have hrest := ih (h.turn t)
    rw [List.append_assoc] at hrest
    exact hrest

/-! ## The path of the archive -/

/-- The turn is the worker's, who is at the end of the source and finishes the archive. -/
def FinishesArchive (r : Run) : Turn → Prop
  | .work _ => ∃ b, r.stage = .closing b (.ok ()) ∧ b.reader.ended = true
  | _ => False

/-- The backup runs to the end of the source in the course of these turns, and the archive is
finished. -/
def ArchiveFinished (r : Run) : List Turn → Prop
  | [] => False
  | t :: turns => r.FinishesArchive t ∨ (r.turn t).ArchiveFinished turns

/-- The path is reported if the archive was finished. -/
structure ReportsPath (r : Run) (finished : Prop) : Prop where
  path : finished → r.report.archivePath = some r.plan.archivePath
  none : ¬ finished → r.report.archivePath = none

theorem Progresses.archivePath (h : r.Progresses sessions r')
    (hr : ∀ b, r.stage ≠ .closing b (.ok ())) :
    r'.report.archivePath = r.report.archivePath := by
  cases h with
  | closes stage => exact absurd stage (hr _)
  | stops _ _ report => rw [report]
  | stays _ report | opensBackup _ _ _ _ _ _ report | passes _ _ _ report
  | archives _ _ _ _ report | fails _ _ _ report | breaksOff _ _ report
  | opensRestore _ _ _ _ _ _ report | moves _ _ _ _ report | givesUp _ _ _ _ _ report => rw [report]

theorem archivePath_of_closing {b : Backup} (h : r.stage = .closing b (.ok ())) :
    (r.step sessions).report.archivePath = some r.plan.archivePath := by
  simp only [step, h, closeBackup, goTo, post]

theorem ReportsPath.turn {finished : Prop} (h : r.ReportsPath finished) (hr : r.OnCourse)
    (t : Turn) : (r.turn t).ReportsPath (finished ∨ r.FinishesArchive t) := by
  have hplan := r.plan_turn t
  rcases r.turn_cases t with ⟨refusals, rfl, hmoves⟩ | ⟨ht, hstirs⟩
  · by_cases hclosing : ∃ b, r.stage = .closing b (.ok ())
    · obtain ⟨b, hb⟩ := hclosing
      have hended : b.reader.ended = true := by
        rw [OnCourse, hb] at hr
        exact hr.2.1 rfl
      refine ⟨fun _ => ?_, fun hnot => absurd (Or.inr ⟨b, hb, hended⟩) hnot⟩
      rw [hplan]
      exact archivePath_of_closing hb
    · rw [not_exists] at hclosing
      have hsame := hmoves.progresses.archivePath hclosing
      refine ⟨?_, fun hnot => hsame.trans (h.none fun hf => hnot (Or.inl hf))⟩
      rintro (hf | ⟨b, hb, -⟩)
      · rw [hsame, hplan]
        exact h.path hf
      · exact absurd hb (hclosing b)
  · have hnot : ¬ r.FinishesArchive t := by
      cases t with
      | work refusals => exact absurd rfl (ht refusals)
      | incident | reply | leave => exact id
    refine ⟨fun hf => ?_, fun hf => ?_⟩
    · rw [hstirs.report, hplan]
      exact h.path (hf.resolve_right hnot)
    · rw [hstirs.report]
      exact h.none fun hfinished => hf (Or.inl hfinished)

theorem ReportsPath.after {finished : Prop} (h : r.ReportsPath finished) (hr : r.OnCourse)
    (turns : List Turn) : (r.after turns).ReportsPath (finished ∨ r.ArchiveFinished turns) := by
  induction turns generalizing r finished with
  | nil => exact (or_false finished).symm ▸ h
  | cons t turns ih =>
    have hrest := ih (h.turn hr t) (hr.turn t)
    rw [or_assoc] at hrest
    exact hrest

theorem ReportsPath.iff {finished : Prop} (h : r.ReportsPath finished) (p : Path) :
    r.report.archivePath = some p ↔ p = r.plan.archivePath ∧ finished := by
  by_cases hfinished : finished
  · rw [h.path hfinished, Option.some_inj, eq_comm]
    exact (and_iff_left hfinished).symm
  · rw [h.none hfinished]
    exact ⟨fun hp => absurd hp.symm (Option.some_ne_none p), fun hp => absurd hp.2 hfinished⟩

/-! ## Records restored -/

/-- Device number `n` is being restored into. -/
def RestoresInto (r : Run) (n : Nat) : Prop :=
  ∃ x, r.stage.restore? = some x ∧ r.bus.numberAt? x.connection = some n

/-- At some time in the course of these turns, device number `n` is being restored into. -/
def RestoredInto (n : Nat) (r : Run) : List Turn → Prop
  | [] => r.RestoresInto n
  | t :: turns => r.RestoresInto n ∨ (r.turn t).RestoredInto n turns

/-- What was restored is what each device stored that is restored into, and no other stored any. -/
structure Tallies (restored : Nat) (stored : Nat → Nat) (into : Nat → Prop) : Prop where
  destination : ∀ n, into n → stored n = restored
  others : ∀ n, ¬ into n → stored n = 0
  nobody : (∀ n, ¬ into n) → restored = 0

theorem Tallies.add {restored restored' : Nat} {stored gain : Nat → Nat} {into : Nat → Prop}
    (h : Tallies restored stored into) (hinto : ∀ n, into n → restored' = restored + gain n)
    (hothers : ∀ n, ¬ into n → gain n = 0) (hnobody : (∀ n, ¬ into n) → restored' = restored) :
    Tallies restored' (fun n => gain n + stored n) into where
  destination n hn := by rw [h.destination n hn, hinto n hn, Nat.add_comm]
  others n hn := by rw [h.others n hn, hothers n hn]
  nobody hn := (hnobody hn).trans (h.nobody hn)

/-- The devices restored into are the one at the end of the restore that is under way, and there are
none before it. -/
def Aims (r : Run) (into : Nat → Prop) : Prop :=
  match r.stage.progress with
  | .before | .backingUp _ | .failing _ | .between => ∀ n, ¬ into n
  | .restoring x => x.writer.written = r.report.restored ∧
      (∀ n, into n ↔ r.bus.numberAt? x.connection = some n) ∧
      ∃ (m : Nat) (d : Device), r.bus.numberAt? x.connection = some m ∧ r.bus.devices[m]? = some d
  | .ended => True

/-- The report is kept up with what the destination stores. -/
structure Balances (r : Run) (stored : Nat → Nat) (into : Nat → Prop) : Prop where
  tallies : Tallies r.report.restored stored into
  aims : r.Aims into

variable {stored : Nat → Nat} {into : Nat → Prop}

theorem RestoresInto.progress {n : Nat} (h : r.RestoresInto n) :
    ∃ x, r.stage.progress = .restoring x ∧ r.bus.numberAt? x.connection = some n := by
  obtain ⟨x, hx, hn⟩ := h
  rw [Stage.restore?_eq] at hx
  split at hx
  · rename_i y hprogress
    exact ⟨x, Option.some.inj hx ▸ hprogress, hn⟩
  · cases hx

theorem RestoresInto.restoredInto {n : Nat} (h : r.RestoresInto n) (turns : List Turn) :
    RestoredInto n r turns := by
  cases turns with
  | nil => exact h
  | cons => exact Or.inl h

theorem restoresInto_of_progress {x : Restore} {n : Nat} (h : r.stage.progress = .restoring x)
    (hn : r.bus.numberAt? x.connection = some n) : r.RestoresInto n :=
  ⟨x, by rw [Stage.restore?_eq, h], hn⟩

/-- What stores nothing is not counted. -/
theorem countP_stores_of_quiet {bus bus' : Device.Bus} {news : Nat → List Device.Exchange}
    (hhears : bus.Hears news bus') (hquiet : ∀ n, ∀ e ∈ news n, e.command.isMutation = false)
    (n : Nat) : (toldBetween bus bus' n).countP Device.Exchange.stores = 0 := by
  refine List.countP_eq_zero.mpr fun e he hstores => ?_
  have hmutation := Device.Exchange.isMutation_of_stores hstores
  rw [hquiet n e (mem_news_of_mem_told hhears he)] at hmutation
  cases hmutation

/-- At every turn, what the device at the end of the restore stores is added to what was restored. -/
theorem Balances.tallies_turn (h : r.Balances stored into) (t : Turn) :
    Tallies (r.turn t).report.restored
      (fun n => (toldBetween r.bus (r.turn t).bus n).countP Device.Exchange.stores + stored n)
      into := by
  have hnothing {news : Nat → List Device.Exchange} (hears : r.bus.Hears news (r.turn t).bus)
      (hquiet : ∀ n, ∀ e ∈ news n, e.command.isMutation = false)
      (hrestored : (r.turn t).report.restored = r.report.restored) :
      Tallies (r.turn t).report.restored
        (fun n => (toldBetween r.bus (r.turn t).bus n).countP Device.Exchange.stores + stored n)
        into := by
    have hnone := countP_stores_of_quiet hears hquiet
    refine h.tallies.add (fun n _ => ?_) (fun n _ => hnone n) fun _ => hrestored
    rw [hnone, hrestored, Nat.add_zero]
  rcases r.turn_cases t with ⟨refusals, rfl, hmoves⟩ | ⟨-, hstirs⟩
  · rcases hmoves.heard with ⟨⟨⟨news, hears, hquiet⟩, -⟩, hrestored⟩ | ⟨x, said, hx, hhears, hcount⟩
    · exact hnothing hears hquiet hrestored
    · have haims := h.aims
      rw [Aims, hx] at haims
      obtain ⟨hwritten, hinto, m, d, hm, hd⟩ := haims
      refine h.tallies.add (fun n hn => ?_) (fun n hn => ?_) fun hnone =>
        absurd ((hinto m).mpr hm) (hnone m)
      · obtain rfl : n = m := Option.some.inj (((hinto n).mp hn).symm.trans hm)
        rw [toldBetween_of_hears hhears hd, Device.Bus.newsAt, if_pos hm]
        exact hcount hwritten
      · refine List.countP_eq_zero.mpr fun e he => ?_
        have he := mem_news_of_mem_told hhears he
        rw [Device.Bus.newsAt, if_neg fun hm => hn ((hinto n).mpr hm)] at he
        cases he
  · exact hnothing hstirs.bus (fun _ => List.forall_mem_nil _)
      (congrArg Report.restored hstirs.report)

theorem Aims.of_restoresInto {n : Nat} (h : r.Aims into) (hn : r.RestoresInto n) : into n := by
  obtain ⟨x, hx, hn⟩ := hn.progress
  rw [Aims, hx] at h
  exact (h.2.1 n).mpr hn

/-- A run goes on restoring into the device it restores into. -/
theorem Aims.restoring {news : Nat → List Device.Exchange} {x x' : Restore} (h : r.Aims into)
    (hears : r.bus.Hears news r'.bus) (before : r.stage.progress = .restoring x)
    (progress : r'.stage.progress = .restoring x') (same : x'.connection = x.connection)
    (written : x'.writer.written = r'.report.restored) : r'.Aims into := by
  rw [Aims, before] at h
  obtain ⟨-, hinto, m, d, hm, hd⟩ := h
  have hm' : r'.bus.numberAt? x'.connection = some m := same ▸ hears.numberAt? hm
  obtain ⟨d', hd', -⟩ := hears.devices m d hd
  rw [Aims, progress]
  refine ⟨written, fun n => ?_, m, d', hm', hd'⟩
  rw [hinto n, hm, hm']

theorem Aims.stays {news : Nat → List Device.Exchange} (h : r.Aims into)
    (hears : r.bus.Hears news r'.bus) (progress : r'.stage.progress = r.stage.progress)
    (report : r'.report = r.report) : r'.Aims into := by
  cases hp : r.stage.progress with
  | restoring x =>
    have hwritten : x.writer.written = r.report.restored := by
      rw [Aims, hp] at h
      exact h.1
    exact h.restoring hears hp (progress.trans hp) rfl (report ▸ hwritten)
  | before | backingUp | failing | between | ended =>
    rw [Aims, hp] at h
    rw [Aims, progress, hp]
    exact h

/-- A step goes on with the restore that is under way, or opens the first. -/
theorem Progresses.aims {refusals : Device.Bus.Refusals} {news : Nat → List Device.Exchange}
    (h : r.Progresses (Device.Bus.sessionsWith refusals) r') (hears : r.bus.Hears news r'.bus)
    (hr : r.Aims into) (hnobody : (∀ n, ¬ into n) → r.report.restored = 0) :
    r'.Aims into ∨ (∀ n, ¬ into n) ∧ r'.Aims r'.RestoresInto := by
  cases h with
  | stays progress report => exact Or.inl (hr.stays hears progress report)
  | stops _ progress | breaksOff _ progress =>
    refine Or.inl ?_
    rw [Aims, progress]
    trivial
  | opensBackup before progress | passes before progress | archives before progress
  | fails before progress =>
    rw [Aims, before] at hr
    refine Or.inl ?_
    rw [Aims, progress]
    exact hr
  | closes stage progress =>
    rw [Aims, stage] at hr
    refine Or.inl ?_
    rw [Aims, progress]
    exact hr
  | opensRestore before progress catalog _ _ fresh report =>
    rw [Aims, before] at hr
    -- what answered has a number
    obtain ⟨m, d, hm, hd, -⟩ := Device.Bus.run_sessionsWith_eq_ok catalog
    obtain ⟨⟨said, hsaid, -⟩, -⟩ := hushed_catalog catalog
    obtain ⟨d', hd', -⟩ := hsaid.devices m d hd
    refine Or.inr ⟨hr, ?_⟩
    rw [Aims, progress]
    refine ⟨fresh.trans (report ▸ (hnobody hr).symm), fun n => ⟨fun hn => ?_, fun hn => ?_⟩, m, d',
      hsaid.numberAt? hm, hd'⟩
    · obtain ⟨y, hy, hn⟩ := hn.progress
      rw [progress] at hy
      exact (Progress.restoring.inj hy) ▸ hn
    · exact restoresInto_of_progress progress hn
  | moves before progress _ same report =>
    exact Or.inl (hr.restoring hears before progress same (by rw [report]))
  | givesUp before progress _ _ same report =>
    exact Or.inl (hr.restoring hears before progress same (by rw [report]))

theorem Balances.turn (h : r.Balances stored into) (t : Turn) :
    (r.turn t).Balances
      (fun n => (toldBetween r.bus (r.turn t).bus n).countP Device.Exchange.stores + stored n)
      (fun n => into n ∨ (r.turn t).RestoresInto n) := by
  have htallies := h.tallies_turn t
  have haims : (r.turn t).Aims into ∨
      (∀ n, ¬ into n) ∧ (r.turn t).Aims (r.turn t).RestoresInto := by
    rcases r.turn_cases t with ⟨refusals, rfl, hmoves⟩ | ⟨-, hstirs⟩
    · obtain ⟨news, hears⟩ := hmoves.hears
      exact hmoves.progresses.aims hears h.aims h.tallies.nobody
    · exact Or.inl (h.aims.stays hstirs.bus hstirs.progress hstirs.report)
  rcases haims with haims | ⟨hnone, haims⟩
  · have hinto : (fun n => into n ∨ (r.turn t).RestoresInto n) = into :=
      funext fun n => propext (or_iff_left_of_imp haims.of_restoresInto)
    rw [hinto]
    exact ⟨htallies, haims⟩
  · have hinto : (fun n => into n ∨ (r.turn t).RestoresInto n) = (r.turn t).RestoresInto :=
      funext fun n => propext (or_iff_right (hnone n))
    rw [hinto]
    have hzero := htallies.nobody hnone
    exact ⟨⟨fun n _ => (htallies.others n (hnone n)).trans hzero.symm,
      fun n _ => htallies.others n (hnone n), fun _ => hzero⟩, haims⟩

theorem Balances.after (h : r.Balances stored into) (turns : List Turn) :
    (r.after turns).Balances
      (fun n => (r.told n turns).countP Device.Exchange.stores + stored n)
      (fun n => into n ∨ RestoredInto n r turns) := by
  induction turns generalizing r stored into with
  | nil =>
    have hinto : (fun n => into n ∨ RestoredInto n r []) = into :=
      funext fun n => propext (or_iff_left_of_imp h.aims.of_restoresInto)
    rw [hinto]
    simpa [told] using h
  | cons t turns ih =>
    have hrest := ih (h.turn t)
    have hinto : (fun n => (into n ∨ (r.turn t).RestoresInto n) ∨ RestoredInto n (r.turn t) turns)
        = fun n => into n ∨ RestoredInto n r (t :: turns) := by
      refine funext fun n => propext ⟨?_, ?_⟩
      · rintro ((hn | hn) | hn)
        · exact Or.inl hn
        · exact Or.inr (Or.inr (hn.restoredInto turns))
        · exact Or.inr (Or.inr hn)
      · rintro (hn | hn | hn)
        · exact Or.inl (Or.inl hn)
        · exact Or.inl (Or.inl (h.aims.of_restoresInto hn))
        · exact Or.inr hn
    rw [hinto] at hrest
    simpa only [told, List.countP_append, Nat.add_assoc, after_cons] using hrest

theorem balances_start (plan : Plan) (bus : Device.Bus) (files : Files) :
    ({ plan, bus, files } : Run).Balances (fun _ => 0) (fun _ => False) :=
  ⟨⟨nofun, fun _ _ => rfl, fun _ => rfl⟩, fun _ => id⟩

end Palmtop.Migration.Run
