import BrokerProbe.Proofs.Dialogue.Conversation
import BrokerProbe.Probe.Outcome
import BrokerProbe.Round.Basic
import BrokerProbe.Topology.Shard
import Mathlib.Data.List.Basic
/-!
# What a transcript tells

A transcript of a round shows what was read and how it ended, what was asked of
the metric space, and what the round learned before it measured.  Each of these
is a view that takes no notice of the rest.
-/

namespace BrokerProbe

namespace Round

open Dialogue (Conversation)

abbrev Exchange := Dialogue.Exchange Question Answer

namespace Question

def metric? : Question -> Option Metric.Question
  | .metric question => some question
  | _ => none

def read? : Question -> Option Partition
  | .read partition => some partition
  | _ => none

def OnMetric (kind : Metric.Question -> Prop) : Question -> Prop
  | .metric question => kind question
  | _ => True

end Question

namespace Read

def isFailure : Read -> Bool
  | answered _ (.error _) => true
  | _ => false

def latency? : Read -> Option Nat
  | answered elapsed (.ok _) => some elapsed
  | answered elapsed (.error _) => some (min (elapsed + Latency.penalty) Latency.ceiling)
  | crashed => none

end Read

namespace Exchange

def sample? : Exchange -> Option (Partition × Nat)
  | ⟨.read partition, .answered elapsed (.ok _)⟩ => some (partition, elapsed)
  | ⟨.read partition, .answered elapsed (.error _)⟩ =>
      some (partition, min (elapsed + Latency.penalty) Latency.ceiling)
  | _ => none

@[simp] def reading? : Exchange -> Option (Partition × Read)
  | ⟨.read partition, answer⟩ => some (partition, answer)
  | _ => none

@[simp] def metric? : Exchange -> Option (Dialogue.Exchange Metric.Question Metric.Answer)
  | ⟨.metric question, answer⟩ => some ⟨question, answer⟩
  | _ => none

def ofMetric (exchange : Dialogue.Exchange Metric.Question Metric.Answer) : Exchange :=
  ⟨.metric exchange.question, exchange.answer⟩

def entered (role : Role) (source target : Stage) : Exchange :=
  ⟨.tell (.stageEntered role source target), ()⟩

def planned (role : Role) (shard : Shard) : Exchange :=
  ⟨.tell (.roundPlanned role shard.totalTopics shard.topics.topicCount
    shard.topics.partitionCount), ()⟩

def released : Exchange :=
  ⟨.close, ()⟩

/--
Whether an exchange leaves a round undisturbed that sees a topology and a
roster: these are the answers, and no read breaks off.
-/
def Sees (topology : Topology) (roster : Roster) : Exchange -> Prop
  | ⟨.fetch, answer⟩ => answer.value = .ok topology
  | ⟨.peers _, answer⟩ => answer = .ok roster
  | ⟨.read _, answer⟩ => answer ≠ .crashed
  | _ => True

end Exchange

/-!
# Set-ups
-/

/-- What a sweep can learn before it measures. -/
inductive SetUp where
  | unfetched (cause : ClientError)
  | unlisted (topology : Topology) (cause : ClientError)
  | listed (topology : Topology) (roster : Roster)

namespace SetUp

def exchanges (directory : Directory) (elapsed : Nat) : SetUp -> List Exchange
  | unfetched cause => [⟨.fetch, ⟨elapsed, .error cause⟩⟩]
  | unlisted topology cause =>
      [⟨.fetch, ⟨elapsed, .ok topology⟩⟩, ⟨.peers directory, .error cause⟩]
  | listed topology roster =>
      [⟨.fetch, ⟨elapsed, .ok topology⟩⟩, ⟨.peers directory, .ok roster⟩]

def shard (address : String) : SetUp -> Except SetupError Shard
  | unfetched cause => .error (.topology cause)
  | unlisted _ cause => .error (.topology cause)
  | listed topology roster => Shard.plan topology roster address

end SetUp

/-!
# What a transcript tells
-/

section Transcript

variable (exchanges : List Exchange)

def reads : List Partition :=
  exchanges.filterMap fun exchange => exchange.question.read?

def readings : List (Partition × Read) :=
  exchanges.filterMap Exchange.reading?

def samples : List (Partition × Nat) :=
  exchanges.filterMap Exchange.sample?

def metricQuestions : List Metric.Question :=
  exchanges.filterMap fun exchange => exchange.question.metric?

def metricExchanges : List (Dialogue.Exchange Metric.Question Metric.Answer) :=
  exchanges.filterMap Exchange.metric?

end Transcript

variable {first second exchanges : List Exchange}
variable {recorded : List (Dialogue.Exchange Metric.Question Metric.Answer)}

@[simp] theorem reads_append : reads (first ++ second) = reads first ++ reads second :=
  List.filterMap_append

theorem filterMap_cons_toList {Item Image : Type} {view : Item -> Option Image} (item : Item)
    (items : List Item) :
    (item :: items).filterMap view = (view item).toList ++ items.filterMap view := by
  rw [List.filterMap_cons]
  cases view item <;> rfl

@[simp] theorem readings_nil : readings [] = [] := rfl

@[simp] theorem readings_cons (exchange : Exchange) :
    readings (exchange :: exchanges) = exchange.reading?.toList ++ readings exchanges :=
  filterMap_cons_toList exchange exchanges

@[simp] theorem readings_append :
    readings (first ++ second) = readings first ++ readings second :=
  List.filterMap_append

@[simp] theorem samples_append : samples (first ++ second) = samples first ++ samples second :=
  List.filterMap_append

@[simp] theorem metricQuestions_append :
    metricQuestions (first ++ second) = metricQuestions first ++ metricQuestions second :=
  List.filterMap_append

@[simp] theorem metricExchanges_nil : metricExchanges [] = [] := rfl

@[simp] theorem metricExchanges_cons (exchange : Exchange) :
    metricExchanges (exchange :: exchanges) =
      exchange.metric?.toList ++ metricExchanges exchanges :=
  filterMap_cons_toList exchange exchanges

@[simp] theorem metricExchanges_append :
    metricExchanges (first ++ second) = metricExchanges first ++ metricExchanges second :=
  List.filterMap_append

@[simp] theorem metricExchanges_ofMetric :
    metricExchanges (recorded.map Exchange.ofMetric) = recorded := by
  rw [metricExchanges, List.filterMap_map]
  exact List.filterMap_some

theorem metricExchanges_probed (partition : Partition) (answer : Read) :
    metricExchanges (⟨.read partition, answer⟩ :: recorded.map Exchange.ofMetric ++ second) =
      recorded ++ metricExchanges second := by
  rw [metricExchanges_append, metricExchanges_cons, metricExchanges_ofMetric]
  rfl

theorem ofMetric_mem {exchange : Dialogue.Exchange Metric.Question Metric.Answer}
    (h : exchange ∈ metricExchanges exchanges) : Exchange.ofMetric exchange ∈ exchanges := by
  rcases List.mem_filterMap.mp h with ⟨⟨question, answer⟩, hexchange, hmetric⟩
  cases question with
  | metric question =>
      cases hmetric
      exact hexchange
  | _ => cases hmetric

theorem forall_metricExchanges {kind : Metric.Question -> Prop}
    (h : forall exchange, exchange ∈ exchanges -> exchange.question.OnMetric kind) :
    forall exchange, exchange ∈ metricExchanges exchanges -> kind exchange.question :=
  fun _ hexchange => h _ (ofMetric_mem hexchange)

theorem filterMap_ofMetric {Item : Type} {view : Exchange -> Option Item}
    (h : forall exchange, view (Exchange.ofMetric exchange) = none) :
    (recorded.map Exchange.ofMetric).filterMap view = [] := by
  rw [List.filterMap_map, List.filterMap_eq_nil_iff]
  exact fun exchange _ => h exchange

@[simp] theorem reads_ofMetric : reads (recorded.map Exchange.ofMetric) = [] :=
  filterMap_ofMetric fun _ => rfl

@[simp] theorem readings_ofMetric : readings (recorded.map Exchange.ofMetric) = [] :=
  filterMap_ofMetric fun _ => rfl

@[simp] theorem samples_ofMetric : samples (recorded.map Exchange.ofMetric) = [] :=
  filterMap_ofMetric fun _ => rfl

@[simp] theorem metricQuestions_ofMetric :
    metricQuestions (recorded.map Exchange.ofMetric) =
      recorded.map Dialogue.Exchange.question := by
  rw [metricQuestions, List.filterMap_map, <- List.filterMap_eq_map]
  rfl

variable {topology : Topology} {roster : Roster}

theorem sample?_read (partition : Partition) (elapsed : Nat)
    (answer : Except ClientError Unit) :
    Exchange.sample? ⟨.read partition, .answered elapsed answer⟩ =
      some (partition, (Probe.Outcome.ofResult partition elapsed answer).recorded) := by
  cases answer with
  | ok =>
      rw [Exchange.sample?, Probe.Outcome.ofResult, Probe.Outcome.recorded,
        Probe.Outcome.isFailure, Probe.Outcome.elapsed, Latency.recorded_success]
  | error cause =>
      rw [Exchange.sample?, Probe.Outcome.ofResult, Probe.Outcome.recorded,
        Probe.Outcome.isFailure, Probe.Outcome.elapsed, Latency.recorded, if_pos rfl]

theorem samples_probed (partition : Partition) (elapsed : Nat)
    (answer : Except ClientError Unit) :
    samples (⟨.read partition, .answered elapsed answer⟩ ::
        recorded.map Exchange.ofMetric ++ second) =
      (partition, (Probe.Outcome.ofResult partition elapsed answer).recorded) ::
        samples second := by
  rw [samples_append]
  exact congrArg (· ++ samples second)
    ((List.filterMap_cons_some (sample?_read partition elapsed answer)).trans
      (congrArg _ samples_ofMetric))

theorem map_snd_samples (exchanges : List Exchange) :
    (samples exchanges).map Prod.snd =
      ((readings exchanges).map Prod.snd).filterMap Read.latency? := by
  rw [samples, readings, List.map_filterMap, List.map_filterMap, List.filterMap_filterMap]
  apply List.filterMap_congr
  rintro ⟨question, answer⟩ _
  cases question with
  | read partition =>
      cases answer with
      | answered elapsed result => cases result <;> rfl
      | crashed => rfl
  | _ => rfl

theorem map_fst_samples
    (h : forall exchange, exchange ∈ exchanges -> Exchange.Sees topology roster exchange) :
    (samples exchanges).map Prod.fst = reads exchanges := by
  rw [samples, reads, List.map_filterMap]
  apply List.filterMap_congr
  intro exchange hexchange
  have hsees := h exchange hexchange
  rcases exchange with ⟨question, answer⟩
  cases question with
  | read partition =>
      cases answer with
      | answered elapsed result => cases result <;> rfl
      | crashed => exact absurd rfl hsees
  | _ => rfl

theorem map_fst_readings (exchanges : List Exchange) :
    (readings exchanges).map Prod.fst = reads exchanges := by
  rw [readings, reads, List.map_filterMap]
  apply List.filterMap_congr
  rintro ⟨question, answer⟩ _
  cases question <;> rfl

theorem recording_inv {Value : Type} {recording : Metric.Recording Value} {value : Value}
    (h : Conversation (Asking.recording recording) exchanges value) :
    exists recorded, exchanges = recorded.map Exchange.ofMetric ∧
      Conversation recording recorded value := by
  induction recording generalizing exchanges with
  | done value =>
      rcases h.done_inv with ⟨rfl, rfl⟩
      exact ⟨[], rfl, .done _⟩
  | ask question next ih =>
      cases h with
      | ask h =>
          rcases ih _ h with ⟨recorded, rfl, hrecorded⟩
          exact ⟨⟨question, _⟩ :: recorded, rfl, .ask hrecorded⟩

end Round

end BrokerProbe
