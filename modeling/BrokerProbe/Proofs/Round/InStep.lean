import BrokerProbe.Proofs.Metric.InStep
import BrokerProbe.Proofs.Round.Protocol
import BrokerProbe.Proofs.Round.Series
/-!
# Rounds in step

Where publishers go in step, the rounds do that record through them.  They ask
the cluster the same and end in the same way, since nothing that a round hears
of its metrics goes beyond the latency that it reports.
-/

namespace BrokerProbe

namespace Round

open Dialogue (InStep)

variable {Place Twin View World Value Other : Type} {surroundings : Surroundings World}

/-!
# Recordings as parts of rounds
-/

section Recording

variable (records : (question : Metric.Question) -> Place -> Metric.Answer question × Place)
variable (surroundings : Surroundings World)

theorem Setting.run_recording (recording : Metric.Recording Value)
    (setting : Setting Place World) :
    (Asking.recording recording).run (reply records surroundings) setting =
      ((Dialogue.run records recording setting.space).1,
        { setting with space := (Dialogue.run records recording setting.space).2 }) := by
  induction recording generalizing setting with
  | done value => rfl
  | ask question next ih => exact ih _ _

theorem Setting.transcript_recording (recording : Metric.Recording Value)
    (setting : Setting Place World) :
    (Asking.recording recording).transcript (reply records surroundings) setting =
      (recording.transcript records setting.space).map Exchange.ofMetric := by
  induction recording generalizing setting with
  | done value => rfl
  | ask question next ih => exact congrArg _ (ih _ _)

end Recording

/-!
# What is seen of a round
-/

/-- Of a round all calls are seen, and of its recordings what is seen of these. -/
def Exchange.seen? (seen : Dialogue.Exchange Metric.Question Metric.Answer -> Option View) :
    Exchange -> Option (Call ⊕ View)
  | ⟨.metric question, answer⟩ => (seen ⟨question, answer⟩).map .inr
  | exchange => exchange.call?.map .inl

variable {seen : Dialogue.Exchange Metric.Question Metric.Answer -> Option View}
variable {first second : List Exchange}

theorem calls_eq_filterMap
    (seen : Dialogue.Exchange Metric.Question Metric.Answer -> Option View)
    (exchanges : List Exchange) :
    calls exchanges = (exchanges.filterMap (Exchange.seen? seen)).filterMap Sum.getLeft? := by
  rw [calls, List.filterMap_filterMap]
  apply List.filterMap_congr
  rintro ⟨question, answer⟩ _
  cases question with
  | metric question =>
      rw [Exchange.seen?]
      cases seen ⟨question, answer⟩ <;> rfl
  | _ => rfl

theorem filterMap_metricExchanges
    (seen : Dialogue.Exchange Metric.Question Metric.Answer -> Option View)
    (exchanges : List Exchange) :
    (metricExchanges exchanges).filterMap seen =
      (exchanges.filterMap (Exchange.seen? seen)).filterMap Sum.getRight? := by
  rw [metricExchanges, List.filterMap_filterMap, List.filterMap_filterMap]
  apply List.filterMap_congr
  rintro ⟨question, answer⟩ _
  cases question with
  | metric question =>
      rw [Exchange.seen?, Exchange.metric?, Option.bind_some]
      cases seen ⟨question, answer⟩ <;> rfl
  | _ => rfl

theorem eq_of_seen? (h : first.filterMap (Exchange.seen? seen) =
      second.filterMap (Exchange.seen? seen)) :
    calls first = calls second ∧
      (metricExchanges first).filterMap seen = (metricExchanges second).filterMap seen := by
  rw [calls_eq_filterMap seen first, calls_eq_filterMap seen second,
    filterMap_metricExchanges seen first, filterMap_metricExchanges seen second, h]
  exact ⟨rfl, rfl⟩

theorem filterMap_seen?_ofMetric
    (recorded : List (Dialogue.Exchange Metric.Question Metric.Answer)) :
    (recorded.map Exchange.ofMetric).filterMap (Exchange.seen? seen) =
      (recorded.filterMap seen).map .inr := by
  rw [List.filterMap_map, List.map_filterMap]
  rfl

/-!
# Askings in step
-/

variable {pairing : Metric.Pairing Place Twin View} {flags others : Metric.Flags}

structure Setting.Paired (pairing : Metric.Pairing Place Twin View)
    (setting : Setting Place World) (twin : Setting Twin World) : Prop where
  space : pairing.places setting.space twin.space
  stopping : setting.stopping = twin.stopping
  world : setting.world = twin.world

def Asking.Pairs (surroundings : Surroundings World) (pairing : Metric.Pairing Place Twin View)
    (fit : Value -> Other -> Prop) (asking : Asking Value) (other : Asking Other) : Prop :=
  InStep (Setting.reply pairing.reply surroundings) (Setting.reply pairing.answers surroundings)
    (Setting.Paired pairing) (Exchange.seen? pairing.seen) fit asking other

theorem Asking.pairs_recording {fit : Value -> Other -> Prop}
    {recording : Metric.Recording Value} {other : Metric.Recording Other}
    (h : recording.Pairs pairing fit other) :
    Asking.Pairs surroundings pairing fit (Asking.recording recording)
      (Asking.recording other) := by
  intro setting twin hpaired
  rcases h setting.space twin.space hpaired.space with ⟨hfit, hspace, hseen⟩
  rw [Setting.run_recording, Setting.run_recording, Setting.transcript_recording,
    Setting.transcript_recording, filterMap_seen?_ofMetric, filterMap_seen?_ofMetric]
  exact ⟨hfit, ⟨hspace, hpaired.stopping, hpaired.world⟩, congrArg _ hseen⟩

theorem Asking.pairs_request {question : Question} (h : question.OnMetric fun _ => False) :
    Asking.Pairs surroundings pairing Eq (Dialogue.request question)
      (Dialogue.request question) := by
  refine InStep.request fun setting twin hpaired => ?_
  rcases setting with ⟨space, stopping, world⟩
  rcases twin with ⟨other, _, _⟩
  rcases hpaired with ⟨hspace, rfl, rfl⟩
  cases question with
  | metric question => exact h.elim
  | peers directory => cases directory <;> exact ⟨rfl, ⟨hspace, rfl, rfl⟩, rfl⟩
  | _ => exact ⟨rfl, ⟨hspace, rfl, rfl⟩, rfl⟩

theorem Asking.pairs_request_bind {question : Question} {fit : Value -> Other -> Prop}
    {next : Answer question -> Asking Value} {following : Answer question -> Asking Other}
    (h : question.OnMetric fun _ => False)
    (hnext : forall answer,
      Asking.Pairs surroundings pairing fit (next answer) (following answer)) :
    Asking.Pairs surroundings pairing fit (Dialogue.request question >>= next)
      (Dialogue.request question >>= following) := by
  refine (pairs_request h).bind ?_
  rintro answer _ rfl
  exact hnext answer

/-- Whether endings are the same but for a latency. -/
inductive Ending.Alike : Ending -> Ending -> Prop where
  | completed (outcome : Outcome) (latency : Metric.Statistics) :
      Alike (.completed outcome) (.completed { outcome with latency })
  | refused (error : SetupError) : Alike (.refused error) (.refused error)
  | crashed : Alike .crashed .crashed

/-!
# Sweeps and surveys in step
-/

variable {role : Role}

namespace Sweep

variable {address : String} {directory : Directory}
variable {tally twin : Metric.Tally}

def Both (pairing : Metric.Pairing Place Twin View) (role : Role) (flags others : Metric.Flags) :
    Option Metric.Tally -> Option Metric.Tally -> Prop
  | some tally, some twin => tally.Twins pairing role flags others twin
  | none, none => True
  | _, _ => False

variable (hjoins : pairing.Joins flags others)

include hjoins

theorem pairs_probe (h : tally.Twins pairing role flags others twin) (partition : Partition) :
    Asking.Pairs surroundings pairing (Both pairing role flags others) (probe tally partition)
      (probe twin partition) := by
  refine Asking.pairs_request_bind trivial ?_
  rintro (⟨elapsed, result⟩ | _)
  · exact (Asking.pairs_recording (h.pairs_recordOutcome hjoins _)).bind fun _ _ htwins =>
      InStep.done htwins
  · exact InStep.done trivial

theorem pairs_probeAll (h : tally.Twins pairing role flags others twin)
    (partitions : List Partition) :
    Asking.Pairs surroundings pairing (Both pairing role flags others)
      (probeAll tally partitions) (probeAll twin partitions) := by
  induction partitions generalizing tally twin with
  | nil => exact InStep.done h
  | cons partition rest ih =>
      refine (pairs_probe hjoins h partition).bind ?_
      rintro (_ | after) (_ | later) hboth
      · exact InStep.done trivial
      · exact hboth.elim
      · exact hboth.elim
      · exact ih hboth

theorem pairs_finish (shard : Shard) (h : tally.Twins pairing role flags others twin) :
    Asking.Pairs surroundings pairing Ending.Alike
      (finish { address, directory, publisher := { role, flags } } shard tally)
      (finish { address, directory, publisher := { role, flags := others } } shard twin) := by
  refine Asking.pairs_request_bind trivial fun _ => ?_
  refine (Asking.pairs_recording (h.pairs_summary hjoins)).bind fun summary other hsummary => ?_
  rw [hsummary]
  refine (Asking.pairs_recording (hjoins.showAvailability role summary.availability)).bind
    fun _ _ _ => ?_
  refine Asking.pairs_request_bind trivial fun _ => ?_
  refine Asking.pairs_request_bind trivial fun _ => ?_
  exact InStep.done (.completed _ _)

theorem pairs_measure (shard : Shard) :
    Asking.Pairs surroundings pairing Ending.Alike
      (measure { address, directory, publisher := { role, flags } } shard)
      (measure { address, directory, publisher := { role, flags := others } } shard) := by
  refine Asking.pairs_request_bind trivial fun _ => ?_
  refine Asking.pairs_request_bind trivial fun _ => ?_
  refine (Asking.pairs_recording (Metric.Tally.pairs_start hjoins role shard.topics)).bind
    fun tally twin htwins => ?_
  refine (pairs_probeAll hjoins htwins _).bind ?_
  rintro (_ | after) (_ | later) hboth
  · exact Asking.pairs_request_bind trivial fun _ => InStep.done .crashed
  · exact hboth.elim
  · exact hboth.elim
  · exact pairs_finish hjoins shard hboth

omit hjoins in
theorem pairs_plan (sweep : Sweep) :
    Asking.Pairs surroundings pairing Eq sweep.plan sweep.plan := by
  refine Asking.pairs_request_bind trivial ?_
  rintro ⟨elapsed, cause | topology⟩
  · exact InStep.done rfl
  · refine Asking.pairs_request_bind trivial ?_
    rintro (cause | roster)
    · exact InStep.done rfl
    · exact InStep.done rfl

theorem pairs_round :
    Asking.Pairs surroundings pairing Ending.Alike
      (round { address, directory, publisher := { role, flags } })
      (round { address, directory, publisher := { role, flags := others } }) := by
  refine Asking.pairs_request_bind trivial fun _ => ?_
  refine InStep.bind (pairs_plan { address, directory, publisher := { role, flags } }) ?_
  rintro (error | shard) _ rfl
  · refine Asking.pairs_request_bind trivial fun _ => ?_
    exact (Asking.pairs_recording (hjoins.showAvailability role (some 0))).bind
      fun _ _ _ => InStep.done (.refused error)
  · exact pairs_measure hjoins shard

end Sweep

theorem Survey.pairs_round (hjoins : pairing.Joins flags others) :
    Asking.Pairs surroundings pairing Ending.Alike
      (round { publisher := { role, flags } })
      (round { publisher := { role, flags := others } }) := by
  have hrecord : forall elapsed failed ratio,
      Metric.Recording.Pairs pairing (fun _ _ => True)
        (record { publisher := { role, flags } } elapsed failed ratio)
        (record { publisher := { role, flags := others } } elapsed failed ratio) := by
    intro elapsed failed ratio
    refine (hjoins.window role (.latency role) capacity).bind fun window twin htwins => ?_
    refine (hjoins.record htwins _).bind fun _ _ _ => ?_
    refine (hjoins.showAvailability role ratio).bind fun _ _ _ => ?_
    exact hjoins.read window twin
  refine Asking.pairs_request_bind trivial fun fetched => ?_
  refine Asking.pairs_request_bind trivial fun _ => ?_
  refine (Asking.pairs_recording (hrecord _ _ _)).bind fun _ _ _ => ?_
  refine Asking.pairs_request_bind trivial fun _ => ?_
  exact InStep.done (.completed _ _)

theorem Task.pairs_round (hjoins : pairing.Joins flags others) (task : Task) :
    Asking.Pairs surroundings pairing Ending.Alike (task.round { role, flags })
      (task.round { role, flags := others }) := by
  cases task with
  | sweep address directory => exact Sweep.pairs_round hjoins
  | survey => exact Survey.pairs_round hjoins

end Round

end BrokerProbe
