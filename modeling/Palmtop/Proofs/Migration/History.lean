import Palmtop.Migration.Dialogue
import Palmtop.Migration.Incident
import Palmtop.Proofs.Device.Wiring

/-! # The history of a migration

A migration goes on by turns (`Turn`): the worker does what is next, or somebody else does something.
At each turn of the worker any commands may be refused on the way to their device.  What was said to
each device and which records were put into the archive is read off the turns, one after the other
(`Run.told`, `Run.archived`).

What others do is not heard by any device, and leaves the worker where it is (`Run.Stirs`).
-/
namespace Palmtop.Migration

/-! ## Turns -/

/-- What moves a migration on: its worker, or somebody else. -/
inductive Turn where
  /-- The worker does what is next, some of its commands being refused on the way. -/
  | work (refusals : Device.Bus.Refusals)
  | incident (incident : Incident)
  /-- The open question is answered or let go. -/
  | reply (reply : Reply)
  /-- Nobody receives the events any more. -/
  | leave

/-- Whether somebody writes a file. -/
def Turn.writesFile : Turn → Bool
  | .incident (.writeFile _ _) => true
  | _ => false

/-- Whether somebody removes a file. -/
def Turn.removesFile : Turn → Bool
  | .incident (.removeFile _) => true
  | _ => false

namespace Run

/-- The run after a turn. -/
def turn (r : Run) : Turn → Run
  | .work refusals => r.step (Device.Bus.sessionsWith refusals)
  | .incident incident => r.suffer incident
  | .reply reply => r.receive (some reply)
  | .leave => r.stopListening

/-- The run after these turns, one after the other. -/
def after (r : Run) (turns : List Turn) : Run := turns.foldl turn r

/-- What a device was told, the latest first, while the bus got from one state to another. -/
def toldBetween (before after : Device.Bus) (n : Nat) : List Device.Exchange :=
  match before.devices[n]?, after.devices[n]? with
  | some d, some d' => d'.transcript.take (d'.transcript.length - d.transcript.length)
  | _, _ => []

/-- What device number `n` is told in the course of these turns, the latest first. -/
def told (n : Nat) (r : Run) : List Turn → List Device.Exchange
  | [] => []
  | t :: turns => (r.turn t).told n turns ++ toldBetween r.bus (r.turn t).bus n

/-- The record that the archive accepts when the worker does what is next. -/
def archives? (r : Run) (sessions : Device.Bus.Sessions) : Option Record :=
  match r.stage with
  | .working (.backUp b) =>
    if b.reader.ended then none
    else match Device.Reader.next (sessions b.connection) b.reader r.bus with
      | (.ok (some record), _) =>
        match b.writer.put record with
        | (.ok (), _) => some record
        | (.error _, _) => none
      | _ => none
  | _ => none

/-- The record that the archive accepts at a turn. -/
def archivesAt? (r : Run) : Turn → Option Record
  | .work refusals => r.archives? (Device.Bus.sessionsWith refusals)
  | _ => none

/-- The records that the archive accepts in the course of these turns, in their order. -/
def archived (r : Run) : List Turn → List Record
  | [] => []
  | t :: turns => (r.archivesAt? t).toList ++ (r.turn t).archived turns

variable {n : Nat} {bus bus' : Device.Bus} {d : Device}

@[simp] theorem after_nil (r : Run) : r.after [] = r := rfl

@[simp] theorem after_cons (r : Run) (t : Turn) (turns : List Turn) :
    r.after (t :: turns) = (r.turn t).after turns := rfl

/-! ## What was told -/

/-- A transcript is read as it was heard. -/
theorem toldBetween_of_hears {news : Nat → List Device.Exchange} (h : bus.Hears news bus')
    (hd : bus.devices[n]? = some d) : toldBetween bus bus' n = news n := by
  obtain ⟨d', hd', hheard⟩ := h.devices n d hd
  simp only [toldBetween, hd, hd', hheard.transcript, List.length_append, Nat.add_sub_cancel,
    List.take_left]

/-- Nothing is told to a device that is not there yet. -/
theorem toldBetween_of_absent (hn : bus.devices[n]? = none) : toldBetween bus bus' n = [] := by
  simp only [toldBetween, hn]

/-- Whatever holds of all news holds of all that is told. -/
theorem mem_news_of_mem_told {news : Nat → List Device.Exchange} {e : Device.Exchange}
    (h : bus.Hears news bus') (he : e ∈ toldBetween bus bus' n) : e ∈ news n := by
  cases hd : bus.devices[n]? with
  | none =>
    rw [toldBetween_of_absent hd] at he
    cases he
  | some d => rwa [toldBetween_of_hears h hd] at he

end Run

/-! ## What others do -/

/-- The worker stands at the same place, whatever became of its question. -/
inductive Stage.Alike : Stage → Stage → Prop where
  | self (stage : Stage) : Alike stage stage
  | password (side : Side) (gate gate' : Handoff String) :
      Alike (.awaitingPassword side gate) (.awaitingPassword side gate')
  | destination (gate gate' : Handoff DeviceInfo) :
      Alike (.awaitingDestination gate) (.awaitingDestination gate')

namespace Run

/-- What others do to a run leaves its worker where it is. -/
structure Stirs (r r' : Run) : Prop where
  plan : r'.plan = r.plan
  stage : r.stage.Alike r'.stage
  phases : r'.phases = r.phases
  report : r'.report = r.report
  cancelled : r.cancelled = true → r'.cancelled = true
  bus : r.bus.Hears (fun _ => []) r'.bus

variable {r r' : Run} {n : Nat} {bus' : Device.Bus} {d : Device}

theorem stirs_bus (r : Run) (h : r.bus.Hears (fun _ => []) bus') : r.Stirs { r with bus := bus' } :=
  ⟨rfl, .self _, rfl, rfl, id, h⟩

theorem stirs_self (r : Run) : r.Stirs r := r.stirs_bus (Device.Bus.hears_self r.bus)

theorem stirs_changeDevice {change : Device → Device}
    (hchange : ∀ d, (change d).transcript = d.transcript ∧ (change d).holdings = d.holdings) :
    r.Stirs (Incident.changeDevice r n change) := by
  unfold Incident.changeDevice
  split
  · rename_i d hd
    exact r.stirs_bus (Device.Bus.hears_setDevice hd (hchange d).1 (hchange d).2)
  · exact r.stirs_self

theorem stirs_changeFiles (r : Run) (change : Files → Except FileError Files) :
    r.Stirs (Incident.changeFiles r change) := by
  unfold Incident.changeFiles
  split
  · exact ⟨rfl, .self _, rfl, rfl, id, Device.Bus.hears_self r.bus⟩
  · exact r.stirs_self

/-- Settings of a database are no holdings. -/
theorem holdings_configure {d d' : Device} {name : String}
    {change : Device.Database → Device.Database} (h : d.configure name change = .ok d')
    (hchange : ∀ db, (change db).name = db.name ∧ (change db).records = db.records) :
    d'.transcript = d.transcript ∧ d'.holdings = d.holdings := by
  unfold Device.configure at h
  split at h
  · obtain rfl := Except.ok.inj h
    refine ⟨rfl, ?_⟩
    refine List.ext_getElem? fun i => ?_
    simp only [Device.holdings, List.getElem?_map, List.getElem?_modify, Option.map_eq_map,
      Option.map_map]
    refine congrArg (fun f => Option.map f d.databases[i]?) (funext fun db => ?_)
    dsimp only [Function.comp]
    split
    · rw [(hchange db).1, (hchange db).2]
    · rfl
  · cases h

theorem stirs_suffer (r : Run) (incident : Incident) : r.Stirs (r.suffer incident) := by
  cases incident with
  | cancel => exact ⟨rfl, .self _, rfl, rfl, fun _ => rfl, Device.Bus.hears_self r.bus⟩
  | breakLink n => exact stirs_changeDevice fun _ => ⟨rfl, rfl⟩
  | refuseTable n database refusing =>
    refine stirs_changeDevice fun d => ?_
    split
    · rename_i hconfigure
      exact holdings_configure hconfigure fun _ => ⟨rfl, rfl⟩
    · exact ⟨rfl, rfl⟩
  | unplug pin => exact r.stirs_bus (Device.Bus.hears_unplug r.bus pin)
  | plugIn info d => exact r.stirs_bus (Device.Bus.hears_plugIn r.bus info d)
  | removeFile path => exact stirs_changeFiles r (·.remove path)
  | writeFile path bytes => exact stirs_changeFiles r (·.write path bytes)

theorem stirs_receive (r : Run) (reply : Option Reply) : r.Stirs (r.receive reply) := by
  have hgoTo {stage : Stage} (h : r.stage.Alike stage) : r.Stirs (r.goTo stage) :=
    ⟨rfl, h, rfl, rfl, id, Device.Bus.hears_self r.bus⟩
  unfold receive answerPassword answerDestination decline
  repeat' split
  all_goals first
    | exact r.stirs_self
    | (rename_i hstage; exact hgoTo (hstage ▸ .password _ _ _))
    | (rename_i hstage; exact hgoTo (hstage ▸ .destination _ _))

theorem stirs_stopListening (r : Run) : r.Stirs r.stopListening :=
  ⟨rfl, .self _, rfl, rfl, id, Device.Bus.hears_self r.bus⟩

end Run

end Palmtop.Migration
