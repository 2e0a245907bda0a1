import BrokerProbe.Proofs.Metric.Tally
import BrokerProbe.Proofs.Round.Transcript
import BrokerProbe.Round.Sweep
/-!
# The course of a sweep

A sweep that finds its shard claims the windows of its tally, reads the
partitions of the shard in order, records each read before the next one, and
completes.  What a read brings does not matter, as long as it comes to an end.
-/

namespace BrokerProbe

namespace Round

open Dialogue (Conversation)

variable {first second exchanges : List Exchange}
variable {recorded : List (Dialogue.Exchange Metric.Question Metric.Answer)}
variable {topology : Topology} {roster : Roster}

namespace Sweep

/-!
# Probing
-/

variable {tally : Metric.Tally} {partition : Partition} {partitions : List Partition}
variable {result : Option Metric.Tally}

inductive Probed (tally : Metric.Tally) (partition : Partition) :
    List Exchange -> Option Metric.Tally -> Prop where
  | crashed : Probed tally partition [⟨.read partition, .crashed⟩] none
  | answered {elapsed : Nat} {answer : Except ClientError Unit}
      {recorded : List (Dialogue.Exchange Metric.Question Metric.Answer)}
      {after : Metric.Tally}
      (records : Conversation (tally.recordOutcome (.ofResult partition elapsed answer))
        recorded after) :
      Probed tally partition
        (⟨.read partition, .answered elapsed answer⟩ :: recorded.map Exchange.ofMetric)
        (some after)

theorem probe_inv (h : Conversation (probe tally partition) exchanges result) :
    Probed tally partition exchanges result := by
  rcases h.request_bind_inv with ⟨answer, rest, rfl, hrest⟩
  cases answer with
  | crashed =>
      rcases hrest.done_inv with ⟨rfl, rfl⟩
      exact .crashed
  | answered elapsed answer =>
      rcases hrest.bind_inv with ⟨first, after, nothing, rfl, hrecording, hdone⟩
      rcases hdone.done_inv with ⟨rfl, rfl⟩
      rcases recording_inv hrecording with ⟨recorded, rfl, hrecorded⟩
      rw [List.append_nil]
      exact .answered hrecorded

theorem isFailure_ofResult (partition : Partition) (elapsed : Nat)
    (answer : Except ClientError Unit) :
    (Probe.Outcome.ofResult partition elapsed answer).isFailure =
      (Read.answered elapsed answer).isFailure := by
  cases answer <;> rfl

theorem probeAll_some_inv {after : Metric.Tally}
    (h : Conversation (probeAll tally partitions) exchanges (some after)) :
    (readings exchanges).map Prod.fst = partitions ∧
      (forall reading, reading ∈ readings exchanges -> reading.2 ≠ .crashed) ∧
      after.counts = (tally.tries + partitions.length,
        tally.failures + (readings exchanges).countP fun reading => reading.2.isFailure) := by
  induction partitions generalizing tally exchanges with
  | nil =>
      rcases h.done_inv with ⟨rfl, hresult⟩
      cases hresult
      exact ⟨rfl, by simp [readings], rfl⟩
  | cons partition rest ih =>
      rcases h.bind_inv with ⟨first, probed, second, rfl, hfirst, hsecond⟩
      rcases probe_inv hfirst with _ | @⟨elapsed, answer, recorded, middle, hrecorded⟩
      · cases hsecond.done_inv.2
      · rcases ih hsecond with ⟨hreads, hfinished, hcounts⟩
        have hreadings : readings (⟨.read partition, .answered elapsed answer⟩ ::
            recorded.map Exchange.ofMetric ++ second) =
              (partition, .answered elapsed answer) :: readings second := by simp
        rw [hreadings]
        refine ⟨congrArg (partition :: ·) hreads, ?_, ?_⟩
        · rw [List.forall_mem_cons]
          exact ⟨nofun, hfinished⟩
        · have hmiddle := Metric.Tally.counts_recordOutcome hrecorded
          rw [Metric.Tally.counts_count, isFailure_ofResult] at hmiddle
          rcases Prod.mk.inj hmiddle with ⟨htries, hfailures⟩
          rw [hcounts, htries, hfailures, List.length_cons, List.countP_cons, Nat.add_assoc,
            Nat.add_assoc, Nat.add_comm 1, Nat.add_comm (ite _ _ _)]

theorem probeAll_none_inv (h : Conversation (probeAll tally partitions) exchanges none) :
    exists finished partition,
      readings exchanges = finished ++ [(partition, .crashed)] ∧
      (forall reading, reading ∈ finished -> reading.2 ≠ .crashed) ∧
      (readings exchanges).map Prod.fst <+: partitions := by
  induction partitions generalizing tally exchanges with
  | nil => cases h.done_inv.2
  | cons partition rest ih =>
      rcases h.bind_inv with ⟨first, probed, second, rfl, hfirst, hsecond⟩
      rcases probe_inv hfirst with _ | @⟨elapsed, answer, recorded, middle, hrecorded⟩
      · rcases hsecond.done_inv with ⟨rfl, _⟩
        exact ⟨[], partition, rfl, by simp, by simp [readings, Exchange.reading?]⟩
      · rcases ih hsecond with ⟨finished, last, hreadings, hfinished, hreads⟩
        refine ⟨(partition, .answered elapsed answer) :: finished, last, ?_, ?_, ?_⟩
        · simp [hreadings]
        · rw [List.forall_mem_cons]
          exact ⟨nofun, hfinished⟩
        · simpa using hreads

theorem probeAll_inv (h : Conversation (probeAll tally partitions) exchanges result)
    (hsees : forall exchange, exchange ∈ exchanges ->
      Exchange.Sees topology roster exchange) :
    exists after, result = some after := by
  cases result with
  | some after => exact ⟨after, rfl⟩
  | none =>
      rcases probeAll_none_inv h with ⟨finished, partition, hreadings, _, _⟩
      have hmem : (partition, Read.crashed) ∈ readings exchanges := by simp [hreadings]
      rcases List.mem_filterMap.mp hmem with ⟨⟨question, answer⟩, hexchange, hreading⟩
      cases question with
      | read other =>
          cases hreading
          exact absurd rfl (hsees _ hexchange)
      | _ => cases hreading

theorem probeAll_published_inv {publisher : Metric.Publisher} {names : List String}
    {known : List Partition} {tries failures : Nat}
    (h : Conversation
      (probeAll (.published publisher names known tries failures) partitions) exchanges result)
    (hknown : forall partition, partition ∈ partitions ->
      partition.topic ∈ names ∧ partition ∈ known) :
    metricQuestions exchanges =
      (samples exchanges).flatMap (Metric.Tally.records publisher.role) := by
  induction partitions generalizing tries failures exchanges with
  | nil =>
      rcases h.done_inv with ⟨rfl, rfl⟩
      rfl
  | cons partition rest ih =>
      rcases h.bind_inv with ⟨first, probed, second, rfl, hfirst, hsecond⟩
      rw [List.forall_mem_cons] at hknown
      rcases probe_inv hfirst with _ | @⟨elapsed, answer, recorded, middle, hrecorded⟩
      · rcases hsecond.done_inv with ⟨rfl, _⟩
        rfl
      have hpartition := hknown.1
      rw [<- Probe.Outcome.partition_ofResult partition elapsed answer] at hpartition
      rcases Metric.Tally.recordOutcome_inv hpartition.1 hpartition.2 hrecorded with
        ⟨rfl, hasked⟩
      have hquestions : metricQuestions (⟨.read partition, .answered elapsed answer⟩ ::
          recorded.map Exchange.ofMetric) =
            metricQuestions (recorded.map Exchange.ofMetric) := rfl
      rw [samples_probed, List.flatMap_cons, metricQuestions_append, hquestions,
        metricQuestions_ofMetric, hasked, Probe.Outcome.partition_ofResult,
        ih hsecond hknown.2]

/-!
# Before and after the probing
-/

def Aside (role : Role) : Question -> Prop
  | .metric question =>
      forall key, question.key? = some key -> key = (Metric.Key.availability role).encode
  | .read _ => False
  | _ => True

variable {sweep : Sweep} {shard : Shard} {ending : Ending}

theorem Aside.read?_eq_none {role : Role} {question : Question} (h : Aside role question) :
    question.read? = none := by
  cases question with
  | read partition => exact h.elim
  | _ => rfl

theorem reads_eq_nil {aside : List Exchange}
    (h : forall exchange, exchange ∈ aside -> Aside sweep.role exchange.question) :
    reads aside = [] := by
  rw [reads, List.filterMap_eq_nil_iff]
  exact fun exchange hexchange => (h exchange hexchange).read?_eq_none

theorem samples_eq_nil {aside : List Exchange}
    (h : forall exchange, exchange ∈ aside -> Aside sweep.role exchange.question) :
    samples aside = [] := by
  rw [samples, List.filterMap_eq_nil_iff]
  rintro ⟨question, answer⟩ hexchange
  have hread := (h _ hexchange).read?_eq_none
  cases question with
  | read partition => cases hread
  | _ => rfl

theorem asks_finish {kind : Question -> Prop} (hclose : kind .close)
    (htell : forall event, kind (.tell event)) (hread : kind (.metric (.read tally.overall)))
    (hgauge : kind (.metric (.gauge (Metric.Key.availability sweep.role).encode)))
    (hset : forall value,
      kind (.metric (.set (Metric.Key.availability sweep.role).encode value))) :
    (sweep.finish shard tally).Asks kind := by
  have hsummary : tally.summary.Asks fun question => kind (.metric question) :=
    ⟨hread, fun _ => trivial⟩
  have hshown : forall ratio, (sweep.publisher.showAvailability ratio).Asks
      fun question => kind (.metric question) :=
    fun ratio => Metric.Publisher.asks_showAvailability ratio hgauge hset
  refine Dialogue.Asks.bind (Dialogue.asks_request.mpr (htell _)) fun _ => ?_
  refine Dialogue.Asks.bind (hsummary.widen fun _ h => h) fun summary => ?_
  refine Dialogue.Asks.bind ((hshown summary.availability).widen fun _ h => h) fun _ => ?_
  exact ⟨hclose, fun _ => ⟨htell _, fun _ => trivial⟩⟩

theorem asks_finish_aside : (sweep.finish shard tally).Asks (Aside sweep.role) := by
  apply asks_finish
  case hclose => exact trivial
  case htell => exact fun _ => trivial
  case hread => exact fun key hkey => nomatch hkey
  case hgauge => exact fun key hkey => (Option.some.inj hkey).symm
  case hset => exact fun value key hkey => (Option.some.inj hkey).symm

theorem finish_inv (h : Conversation (sweep.finish shard tally) exchanges ending) :
    exists latency shown key,
      exchanges = .entered sweep.role .probing .reporting ::
        ⟨.metric (.read tally.overall), latency⟩ ::
          (shown.map Exchange.ofMetric ++ [.released, .entered sweep.role .reporting .done]) ∧
      Conversation (sweep.publisher.showAvailability tally.availability) shown key ∧
      ending = .completed (sweep.outcome shard (tally.summaryOf latency)) := by
  rcases h.request_bind_inv with ⟨_, reporting, rfl, hreporting⟩
  rcases hreporting.bind_inv with ⟨_, summary, showing, rfl, hsummary, hshowing⟩
  rcases hshowing.bind_inv with ⟨_, key, releasing, rfl, hshow, hreleasing⟩
  rcases hreleasing.request_bind_inv with ⟨_, leaving, rfl, hleaving⟩
  rcases hleaving.request_bind_inv with ⟨_, nothing, rfl, hdone⟩
  rcases hdone.done_inv with ⟨rfl, rfl⟩
  rcases recording_inv hsummary with ⟨recorded, rfl, hrecorded⟩
  rcases recording_inv hshow with ⟨shown, rfl, hshown⟩
  rcases Metric.Tally.summary_inv hrecorded with ⟨latency, rfl, rfl⟩
  exact ⟨latency, shown, key, rfl, hshown, rfl⟩

/-!
# The whole round
-/

/-- How a round goes that measures its shard and is not broken off. -/
inductive Course (sweep : Sweep) (shard : Shard) : List Exchange -> Ending -> Prop where
  | intro {opening probed closing : List Exchange}
      {started : List (Dialogue.Exchange Metric.Question Metric.Answer)}
      {tally final : Metric.Tally} {ending : Ending}
      (opens : forall exchange, exchange ∈ opening -> Aside sweep.role exchange.question)
      (starts : Conversation (Metric.Tally.start sweep.publisher shard.topics) started tally)
      (probes : Conversation (probeAll tally shard.topics.partitions) probed (some final))
      (finishes : Conversation (sweep.finish shard final) closing ending) :
      Course sweep shard (opening ++ (started.map Exchange.ofMetric ++ (probed ++ closing)))
        ending

theorem Course.append {aside : List Exchange} (h : Course sweep shard exchanges ending)
    (haside : forall exchange, exchange ∈ aside -> Aside sweep.role exchange.question) :
    Course sweep shard (aside ++ exchanges) ending := by
  rcases h with ⟨opens, starts, probes, finishes⟩
  rw [<- List.append_assoc]
  exact .intro (List.forall_mem_append.mpr ⟨haside, opens⟩) starts probes finishes

theorem Course.cons {exchange : Exchange} (h : Course sweep shard exchanges ending)
    (haside : Aside sweep.role exchange.question) :
    Course sweep shard (exchange :: exchanges) ending :=
  Course.append h (List.forall_mem_singleton.mpr haside)

inductive Measured (sweep : Sweep) (shard : Shard) : List Exchange -> Ending -> Prop where
  | crashed {started : List (Dialogue.Exchange Metric.Question Metric.Answer)}
      {tally : Metric.Tally} {probed : List Exchange}
      (starts : Conversation (Metric.Tally.start sweep.publisher shard.topics) started tally)
      (probes : Conversation (probeAll tally shard.topics.partitions) probed none) :
      Measured sweep shard
        (.planned sweep.role shard :: .entered sweep.role .planning .probing ::
          (started.map Exchange.ofMetric ++ (probed ++ [.released])))
        .crashed
  | completed {started : List (Dialogue.Exchange Metric.Question Metric.Answer)}
      {tally final : Metric.Tally} {probed closing : List Exchange} {ending : Ending}
      (starts : Conversation (Metric.Tally.start sweep.publisher shard.topics) started tally)
      (probes : Conversation (probeAll tally shard.topics.partitions) probed (some final))
      (finishes : Conversation (sweep.finish shard final) closing ending) :
      Measured sweep shard
        (.planned sweep.role shard :: .entered sweep.role .planning .probing ::
          (started.map Exchange.ofMetric ++ (probed ++ closing)))
        ending

/-- The ways in which a round can go. -/
inductive Way (sweep : Sweep) : List Exchange -> Ending -> Prop where
  | refused {elapsed : Nat} {setUp : SetUp} {error : SetupError}
      {shown : List (Dialogue.Exchange Metric.Question Metric.Answer)} {key : Option String}
      (plans : setUp.shard sweep.address = .error error)
      (shows : Conversation (sweep.publisher.showAvailability (some 0)) shown key) :
      Way sweep
        (.entered sweep.role .idle .planning ::
          (setUp.exchanges sweep.directory elapsed ++
            .released :: shown.map Exchange.ofMetric))
        (.refused error)
  | measured {elapsed : Nat} {setUp : SetUp} {shard : Shard} {measuring : List Exchange}
      {ending : Ending} (plans : setUp.shard sweep.address = .ok shard)
      (measures : Measured sweep shard measuring ending) :
      Way sweep
        (.entered sweep.role .idle .planning ::
          (setUp.exchanges sweep.directory elapsed ++ measuring))
        ending

theorem plan_inv {planned : Except SetupError Shard}
    (h : Conversation sweep.plan exchanges planned) :
    exists (elapsed : Nat) (setUp : SetUp),
      exchanges = setUp.exchanges sweep.directory elapsed ∧
        planned = setUp.shard sweep.address := by
  rcases h.request_bind_inv with ⟨⟨elapsed, fetched⟩, rest, rfl, hlooking⟩
  cases fetched with
  | error cause =>
      rcases hlooking.done_inv with ⟨rfl, rfl⟩
      exact ⟨elapsed, .unfetched cause, rfl, rfl⟩
  | ok topology =>
      rcases hlooking.request_bind_inv with ⟨listed, nothing, rfl, hdone⟩
      cases listed with
      | error cause =>
          rcases hdone.done_inv with ⟨rfl, rfl⟩
          exact ⟨elapsed, .unlisted topology cause, rfl, rfl⟩
      | ok roster =>
          rcases hdone.done_inv with ⟨rfl, rfl⟩
          exact ⟨elapsed, .listed topology roster, rfl, rfl⟩

theorem measure_inv (h : Conversation (sweep.measure shard) exchanges ending) :
    Measured sweep shard exchanges ending := by
  rcases h.request_bind_inv with ⟨_, entering, rfl, hentering⟩
  rcases hentering.request_bind_inv with ⟨_, claiming, rfl, hclaiming⟩
  rcases hclaiming.bind_inv with ⟨claimed, tally, probing, rfl, hclaimed, hprobing⟩
  rcases hprobing.bind_inv with ⟨probed, result, closing, rfl, hprobed, hclosing⟩
  rcases recording_inv hclaimed with ⟨started, rfl, hstarted⟩
  cases result with
  | none =>
      rcases hclosing.request_bind_inv with ⟨_, nothing, rfl, hdone⟩
      rcases hdone.done_inv with ⟨rfl, rfl⟩
      exact .crashed hstarted hprobed
  | some final => exact .completed hstarted hprobed hclosing

theorem refuse_inv {error : SetupError}
    (h : Conversation (sweep.refuse error) exchanges ending) :
    exists shown key, exchanges = .released :: shown.map Exchange.ofMetric ∧
      Conversation (sweep.publisher.showAvailability (some 0)) shown key ∧
      ending = .refused error := by
  rcases h.request_bind_inv with ⟨_, showing, rfl, hshowing⟩
  rcases hshowing.bind_inv with ⟨_, key, nothing, rfl, hshow, hdone⟩
  rcases hdone.done_inv with ⟨rfl, rfl⟩
  rcases recording_inv hshow with ⟨shown, rfl, hshown⟩
  rw [List.append_nil]
  exact ⟨shown, key, rfl, hshown, rfl⟩

theorem round_way (h : Conversation sweep.round exchanges ending) :
    Way sweep exchanges ending := by
  rcases h.request_bind_inv with ⟨_, rest, rfl, hround⟩
  rcases hround.bind_inv with ⟨_, planned, later, rfl, hplanned, hlater⟩
  rcases plan_inv hplanned with ⟨elapsed, setUp, rfl, rfl⟩
  cases hplan : setUp.shard sweep.address with
  | ok shard =>
      rw [hplan] at hlater
      exact .measured hplan (measure_inv hlater)
  | error error =>
      rw [hplan] at hlater
      rcases refuse_inv hlater with ⟨shown, key, rfl, hshown, rfl⟩
      exact .refused hplan hshown

theorem shard_setUp {setUp : SetUp} {directory : Directory} {elapsed : Nat}
    (hsees : forall exchange, exchange ∈ setUp.exchanges directory elapsed ->
      Exchange.Sees topology roster exchange) (address : String) :
    setUp.shard address = Shard.plan topology roster address := by
  cases setUp with
  | unfetched => cases hsees _ List.mem_cons_self
  | unlisted => cases hsees _ (List.mem_cons_of_mem _ List.mem_cons_self)
  | listed =>
      cases hsees _ List.mem_cons_self
      cases hsees _ (List.mem_cons_of_mem _ List.mem_cons_self)
      rfl

theorem aside_setUp (setUp : SetUp) (directory : Directory) (elapsed : Nat) (role : Role) :
    forall exchange, exchange ∈ setUp.exchanges directory elapsed ->
      Aside role exchange.question := by
  cases setUp <;> simp [SetUp.exchanges, Aside]

theorem round_inv (h : Conversation sweep.round exchanges ending)
    (hsees : forall exchange, exchange ∈ exchanges ->
      Exchange.Sees topology roster exchange)
    (hplan : Shard.plan topology roster sweep.address = .ok shard) :
    Course sweep shard exchanges ending := by
  rcases round_way h with ⟨hplanned, _⟩ | ⟨hplanned, hmeasures⟩
  · rw [List.forall_mem_cons, List.forall_mem_append] at hsees
    rw [shard_setUp hsees.2.1, hplan] at hplanned
    cases hplanned
  · rw [List.forall_mem_cons, List.forall_mem_append] at hsees
    rw [shard_setUp hsees.2.1, hplan] at hplanned
    cases hplanned
    refine Course.cons (Course.append ?_ (aside_setUp _ _ _ _)) trivial
    rcases hmeasures with ⟨hstarts, hprobes⟩ | ⟨hstarts, hprobes, hfinishes⟩
    · simp only [List.forall_mem_cons, List.forall_mem_append] at hsees
      rcases probeAll_inv hprobes hsees.2.2.2.2.2.1 with ⟨_, ⟨⟩⟩
    · have hcourse : Course sweep shard ([] ++ _) _ :=
        .intro (by simp) hstarts hprobes hfinishes
      exact Course.cons (Course.cons hcourse trivial) trivial

theorem Course.completed (h : Course sweep shard exchanges ending)
    (hsees : forall exchange, exchange ∈ exchanges ->
      Exchange.Sees topology roster exchange) :
    reads exchanges = shard.topics.partitions ∧
      exists summary : Metric.Summary, summary.tries = shard.topics.partitionCount ∧
        ending = .completed (sweep.outcome shard summary) := by
  rcases h with @⟨_, _, _, _, _, final, _, opens, starts, probes, finishes⟩
  simp only [List.forall_mem_append] at hsees
  rcases probeAll_some_inv probes with ⟨hreads, _, hcounts⟩
  rw [map_fst_readings] at hreads
  have htries := (Prod.mk.inj hcounts).1
  have hstart := (Prod.mk.inj (Metric.Tally.counts_start starts)).1
  rcases finish_inv finishes with ⟨latency, _, _, _, _, rfl⟩
  constructor
  · rw [reads_append, reads_append, reads_append, reads_eq_nil opens, reads_ofMetric, hreads,
      reads_eq_nil (finishes.asks asks_finish_aside)]
    simp
  · refine ⟨final.summaryOf latency, ?_, rfl⟩
    rw [Metric.Tally.summaryOf, htries, hstart, Topology.length_partitions, Nat.zero_add]

/-!
# What a round asks whatever the answers
-/

section Asks

variable {kind : Question -> Prop} (allowed : Metric.Kind -> Prop)
variable (htopic : allowed .topicLatency) (hpartition : allowed .partitionLatency)
variable (hclaims : forall question : Metric.Question,
  question.Claims allowed -> kind (.metric question))
variable (hmetric : forall question : Metric.Question, question.Fits -> kind (.metric question))
variable (hclose : kind .close) (hread : forall partition, kind (.read partition))
variable (htell : forall event, kind (.tell event))

include hread

section Claims

include htopic hpartition hclaims

theorem asks_probe (tally : Metric.Tally) (partition : Partition) :
    (probe tally partition).Asks kind := by
  refine Dialogue.Asks.bind (Dialogue.asks_request.mpr (hread partition)) ?_
  intro answer
  cases answer with
  | crashed => exact Dialogue.asks_done
  | answered elapsed result =>
      have hasks := Metric.Tally.asks_recordOutcome allowed htopic hpartition tally
        (.ofResult partition elapsed result)
      exact (hasks.widen hclaims).bind fun _ => Dialogue.asks_done

theorem asks_probeAll (tally : Metric.Tally) (partitions : List Partition) :
    (probeAll tally partitions).Asks kind := by
  induction partitions generalizing tally with
  | nil => exact Dialogue.asks_done
  | cons partition rest ih =>
      refine (asks_probe allowed htopic hpartition hclaims hread tally partition).bind ?_
      intro probed
      cases probed with
      | none => exact Dialogue.asks_done
      | some tally => exact ih tally

end Claims

omit hread in
theorem asks_probeAll_claims (htopic : allowed .topicLatency)
    (hpartition : allowed .partitionLatency) (tally : Metric.Tally)
    (partitions : List Partition) :
    (probeAll tally partitions).Asks (Question.OnMetric (Metric.Question.Claims allowed)) :=
  asks_probeAll allowed htopic hpartition (fun _ h => h) (fun _ => trivial) tally partitions

include hmetric hclose htell

theorem asks_measure (sweep : Sweep) (shard : Shard) : (sweep.measure shard).Asks kind := by
  refine Dialogue.Asks.bind (Dialogue.asks_request.mpr (htell _)) fun _ => ?_
  refine Dialogue.Asks.bind (Dialogue.asks_request.mpr (htell _)) fun _ => ?_
  have hclaims : forall question : Metric.Question,
      question.Claims Metric.Kind.Windowed -> kind (.metric question) :=
    fun question h => hmetric question h.fits
  have hstart : (Metric.Tally.start sweep.publisher shard.topics).Asks
      (Metric.Question.Claims Metric.Kind.Windowed) :=
    Metric.Tally.asks_start Metric.Kind.Windowed rfl rfl rfl _ _
  refine Dialogue.Asks.bind (hstart.widen hclaims) fun tally => ?_
  refine Dialogue.Asks.bind (asks_probeAll Metric.Kind.Windowed rfl rfl hclaims hread tally _) ?_
  intro probed
  cases probed with
  | none => exact ⟨hclose, fun _ => trivial⟩
  | some tally =>
      exact asks_finish hclose htell (hmetric _ trivial) (hmetric _ ⟨_, rfl, rfl⟩)
        fun _ => hmetric _ trivial

theorem asks_round (sweep : Sweep) (hfetch : kind .fetch)
    (hpeers : kind (.peers sweep.directory)) : sweep.round.Asks kind := by
  have hplan : sweep.plan.Asks kind := by
    refine Dialogue.Asks.bind (Dialogue.asks_request.mpr hfetch) ?_
    rintro ⟨elapsed, _ | topology⟩
    · exact Dialogue.asks_done
    · refine Dialogue.Asks.bind (Dialogue.asks_request.mpr hpeers) ?_
      rintro (_ | roster)
      · exact Dialogue.asks_done
      · exact Dialogue.asks_done
  refine Dialogue.Asks.bind (Dialogue.asks_request.mpr (htell _)) fun _ => ?_
  refine Dialogue.Asks.bind hplan ?_
  intro planned
  cases planned with
  | ok shard => exact asks_measure hmetric hclose hread htell sweep shard
  | error error =>
      refine Dialogue.Asks.bind (Dialogue.asks_request.mpr hclose) fun _ => ?_
      exact Dialogue.Asks.bind ((Metric.Publisher.asks_showAvailability_fits _).widen hmetric)
        fun _ => Dialogue.asks_done

end Asks

end Sweep

end Round

end BrokerProbe
