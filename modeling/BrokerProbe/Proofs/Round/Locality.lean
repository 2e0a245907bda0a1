import BrokerProbe.Proofs.Metric.Locality
import BrokerProbe.Proofs.Round.Scene
import BrokerProbe.Proofs.Round.Series
import BrokerProbe.Proofs.Round.Survey
import BrokerProbe.Proofs.Round.Sweep
/-!
# Rounds keep to their publisher

A round names no keys but those of its role, and of these none that the flags hold
back, whatever it is answered and however its topics are called.  So what it finds
and leaves depends on what these keys reach.
-/

namespace BrokerProbe

namespace Round

open BrokerProbe.Metric (Handle Local Publisher)

variable {World Value : Type} {publisher : Publisher}

def Exchange.Hands (publisher : Publisher) : Exchange -> Prop
  | ⟨.metric question, answer⟩ => Metric.Hands (Handle.Of publisher) ⟨question, answer⟩
  | _ => True

def Asking.KeepsTo (publisher : Publisher) (fit : Value -> Prop) (asking : Asking Value) : Prop :=
  asking.Ensures (Question.OnMetric (Metric.Question.Names publisher.Owns))
    (Exchange.Hands publisher) fit

theorem Asking.keepsTo_recording {fit : Value -> Prop} {recording : Metric.Recording Value}
    (h : recording.KeepsTo publisher fit) : (Asking.recording recording).KeepsTo publisher fit :=
  Dialogue.Ensures.widen (fun _ h => h) (fun _ _ h => h) h

/-!
# Sweeps
-/

namespace Sweep

variable {tally : Metric.Tally}

theorem keepsTo_probe (h : tally.Of publisher) (partition : Partition) :
    (probe tally partition).KeepsTo publisher fun after => forall tally, after = some tally ->
      tally.Of publisher := by
  refine Dialogue.Ensures.request_bind trivial ?_
  rintro (⟨elapsed, result⟩ | _) -
  · refine Dialogue.Ensures.bind
      (Asking.keepsTo_recording (h.keepsTo_recordOutcome _)) fun after hafter => ?_
    rintro _ ⟨⟩
    exact hafter
  · rintro _ ⟨⟩

theorem keepsTo_probeAll (h : tally.Of publisher) (partitions : List Partition) :
    (probeAll tally partitions).KeepsTo publisher fun after => forall tally, after = some tally ->
      tally.Of publisher := by
  induction partitions generalizing tally with
  | nil =>
      rintro _ ⟨⟩
      exact h
  | cons partition rest ih =>
      refine Dialogue.Ensures.bind (keepsTo_probe h partition) ?_
      rintro (_ | after) hafter
      · rintro _ ⟨⟩
      · exact ih (hafter after rfl)

variable (sweep : Sweep)

theorem keepsTo_finish (shard : Shard) (h : tally.Of sweep.publisher) :
    (sweep.finish shard tally).KeepsTo sweep.publisher fun _ => True := by
  refine Dialogue.Ensures.request_bind trivial fun _ _ => ?_
  refine Dialogue.Ensures.bind (Asking.keepsTo_recording h.keepsTo_summary) fun _ _ => ?_
  refine Dialogue.Ensures.bind
    (Asking.keepsTo_recording (Publisher.keepsTo_showAvailability _)) fun _ _ => ?_
  exact ⟨trivial, fun _ _ => ⟨trivial, fun _ _ => trivial⟩⟩

theorem keepsTo_measure (shard : Shard) :
    (sweep.measure shard).KeepsTo sweep.publisher fun _ => True := by
  refine Dialogue.Ensures.request_bind trivial fun _ _ => ?_
  refine Dialogue.Ensures.request_bind trivial fun _ _ => ?_
  refine Dialogue.Ensures.bind
    (Asking.keepsTo_recording (Metric.Tally.keepsTo_start sweep.publisher shard.topics))
    fun tally htally => ?_
  refine Dialogue.Ensures.bind (keepsTo_probeAll htally _) ?_
  rintro (_ | after) hafter
  · exact ⟨trivial, fun _ _ => trivial⟩
  · exact sweep.keepsTo_finish shard (hafter after rfl)

theorem asks_plan (sweep : Sweep) : sweep.plan.Asks (Question.OnMetric fun _ => False) := by
  refine ⟨trivial, ?_⟩
  rintro ⟨elapsed, _ | topology⟩
  · trivial
  · refine ⟨trivial, ?_⟩
    rintro (_ | roster)
    · trivial
    · trivial

theorem keepsTo_round : sweep.round.KeepsTo sweep.publisher fun _ => True := by
  have hplan : sweep.plan.KeepsTo sweep.publisher fun _ => True := by
    refine Dialogue.Asks.ensures (sweep.asks_plan.mono fun question h => ?_)
    cases question with
    | metric question => exact h.elim
    | _ => trivial
  refine Dialogue.Ensures.request_bind trivial fun _ _ => ?_
  refine Dialogue.Ensures.bind hplan ?_
  rintro (error | shard) -
  · refine Dialogue.Ensures.request_bind trivial fun _ _ => ?_
    exact Dialogue.Ensures.bind
      (Asking.keepsTo_recording (Publisher.keepsTo_showAvailability _))
      fun _ _ => trivial
  · exact sweep.keepsTo_measure shard

end Sweep

/-!
# Surveys
-/

theorem Survey.keepsTo_round (survey : Survey) :
    survey.round.KeepsTo survey.publisher fun _ => True := by
  have hrecord : forall elapsed failed ratio,
      (survey.record elapsed failed ratio).KeepsTo survey.publisher fun _ => True := by
    intro elapsed failed ratio
    refine Dialogue.Ensures.bind (Publisher.keepsTo_window rfl _) fun window hwindow => ?_
    refine Dialogue.Ensures.request_bind hwindow fun _ _ => ?_
    refine Dialogue.Ensures.bind (Publisher.keepsTo_showAvailability _) fun _ _ => ?_
    exact ⟨hwindow, fun _ _ => trivial⟩
  refine Dialogue.Ensures.request_bind trivial fun fetched _ => ?_
  refine Dialogue.Ensures.request_bind trivial fun _ _ => ?_
  refine Dialogue.Ensures.bind (Asking.keepsTo_recording (hrecord _ _ _)) fun _ _ => ?_
  exact ⟨trivial, fun _ _ => trivial⟩

theorem Task.keepsTo_round (publisher : Publisher) (task : Task) :
    (task.round publisher).KeepsTo publisher fun _ => True := by
  cases task with
  | sweep address directory => exact Sweep.keepsTo_round { address, directory, publisher }
  | survey => exact Survey.keepsTo_round { publisher }

theorem Task.keepsTo_rounds (publisher : Publisher) (tasks : List Task) :
    (Task.rounds publisher tasks).KeepsTo publisher fun _ => True := by
  induction tasks with
  | nil => trivial
  | cons task rest ih =>
      refine Dialogue.Ensures.bind (task.keepsTo_round publisher) fun _ _ => ?_
      exact Dialogue.Ensures.bind ih fun _ _ => trivial

/-!
# Rounds as acts on the instruments
-/

/-- What a round acts on apart from the instruments, which are shared. -/
structure Backdrop (World : Type) where
  detached : Array Metric.Window
  stopping : Bool
  world : World

namespace Backdrop

variable {surroundings : Surroundings World}

def setting (backdrop : Backdrop World) (commons : Metric.Commons) :
    Setting Metric.Hall World :=
  { space := { commons, detached := backdrop.detached }
    stopping := backdrop.stopping
    world := backdrop.world }

def ofSetting (setting : Setting Metric.Hall World) : Backdrop World :=
  { detached := setting.space.detached, stopping := setting.stopping, world := setting.world }

def act (backdrop : Backdrop World) (surroundings : Surroundings World) (question : Question)
    (commons : Metric.Commons) : (Answer question × Backdrop World) × Metric.Commons :=
  let given := Setting.reply Metric.Hall.reply surroundings question (backdrop.setting commons)
  ((given.1, ofSetting given.2), given.2.space.commons)

def play (backdrop : Backdrop World) (surroundings : Surroundings World) (asking : Asking Value)
    (commons : Metric.Commons) : (Value × Backdrop World) × Metric.Commons :=
  let played := asking.run (Setting.reply Metric.Hall.reply surroundings)
    (backdrop.setting commons)
  ((played.1, ofSetting played.2), played.2.space.commons)

theorem local_act {question : Question}
    (h : question.OnMetric (Metric.Question.Names publisher.Owns)) (backdrop : Backdrop World) :
    Local publisher.Owns (backdrop.act surroundings question) := by
  cases question with
  | metric question =>
      exact (Metric.Hall.local_act h backdrop.detached).map fun given =>
        ((given.1, { backdrop with detached := given.2 }) : Metric.Answer question × Backdrop World)
  | peers directory => cases directory <;> exact Local.aside (fun _ => rfl) fun _ _ => rfl
  | _ => exact Local.aside (fun _ => rfl) fun _ _ => rfl

theorem hands_act {question : Question}
    (h : question.OnMetric (Metric.Question.Names publisher.Owns)) (backdrop : Backdrop World)
    (commons : Metric.Commons) :
    Exchange.Hands publisher ⟨question, (backdrop.act surroundings question commons).1.1⟩ := by
  cases question with
  | metric question => exact Metric.Question.Names.hands h _
  | _ => trivial

/-- What keeps to a role depends on what its keys reach, and changes nothing else. -/
theorem local_play {asking : Asking Value} {fit : Value -> Prop} (h : asking.KeepsTo publisher fit)
    (backdrop : Backdrop World) : Local publisher.Owns (backdrop.play surroundings asking) := by
  induction asking generalizing backdrop with
  | done value => exact Local.aside (fun _ => rfl) fun _ _ => rfl
  | ask question next ih =>
      exact (local_act h.1 backdrop).bind
        (fun given => given.2.play surroundings (next given.1))
        fun commons => ih _ (h.2 _ (hands_act h.1 backdrop commons)) _

def scene (backdrop : Backdrop World) (registry : Metric.Registry) : Scene World :=
  { space := { registry, detached := backdrop.detached }
    stopping := backdrop.stopping
    world := backdrop.world }

theorem play_view {commons : Metric.Commons} (h : commons.Sole) (backdrop : Backdrop World)
    (asking : Asking Value) :
    let played := Scene.play surroundings asking (backdrop.scene commons.view)
    (backdrop.play surroundings asking commons).1.1 = played.1 ∧
      (backdrop.play surroundings asking commons).2.view = played.2.space.registry := by
  have hseen := Setting.play_seen surroundings asking (backdrop.setting commons) h
  exact ⟨congrArg Prod.fst hseen.symm,
    congrArg (fun played => played.2.space.registry) hseen.symm⟩

end Backdrop

end Round

end BrokerProbe
