import BrokerProbe.Proofs.Round.Coverage
import BrokerProbe.Simulated.Bench
/-!
# The protocol of a round

Whatever the cluster answers, a round over partitions fetches the topology
first and gives it back last, once each.  Only what it learns in between can
refuse it, and only a read that crashes can break it off; every other round
reads the partitions of its plan in order and counts them.
-/

namespace BrokerProbe

namespace Round

open Dialogue (Conversation)

/-!
# Calls and transitions
-/

inductive Call where
  | fetch (answer : Except ClientError Topology)
  | peers (answer : Except ClientError Roster)
  | read (partition : Partition) (answer : Read)
  | close

namespace Exchange

@[simp] def call? : Exchange -> Option Call
  | ⟨.fetch, answer⟩ => some (.fetch answer.value)
  | ⟨.peers _, answer⟩ => some (.peers answer)
  | ⟨.read partition, answer⟩ => some (.read partition answer)
  | ⟨.close, _⟩ => some .close
  | _ => none

@[simp] def transition? : Exchange -> Option (Stage × Stage)
  | ⟨.tell event, _⟩ => Simulated.Bench.transition? event
  | _ => none

end Exchange

section Views

variable (exchanges : List Exchange)

def calls : List Call :=
  exchanges.filterMap Exchange.call?

def transitions : List (Stage × Stage) :=
  exchanges.filterMap Exchange.transition?

end Views

variable {first second exchanges : List Exchange}
variable {recorded : List (Dialogue.Exchange Metric.Question Metric.Answer)}

@[simp] theorem calls_append : calls (first ++ second) = calls first ++ calls second :=
  List.filterMap_append

@[simp] theorem transitions_append :
    transitions (first ++ second) = transitions first ++ transitions second :=
  List.filterMap_append

@[simp] theorem calls_nil : calls [] = [] := rfl

@[simp] theorem transitions_nil : transitions [] = [] := rfl

@[simp] theorem calls_cons (exchange : Exchange) :
    calls (exchange :: exchanges) = exchange.call?.toList ++ calls exchanges :=
  filterMap_cons_toList exchange exchanges

@[simp] theorem transitions_cons (exchange : Exchange) :
    transitions (exchange :: exchanges) =
      exchange.transition?.toList ++ transitions exchanges :=
  filterMap_cons_toList exchange exchanges

@[simp] theorem calls_ofMetric : calls (recorded.map Exchange.ofMetric) = [] :=
  filterMap_ofMetric fun _ => rfl

@[simp] theorem transitions_ofMetric : transitions (recorded.map Exchange.ofMetric) = [] :=
  filterMap_ofMetric fun _ => rfl

def Call.ofReading (reading : Partition × Read) : Call :=
  .read reading.1 reading.2

namespace SetUp

def calls : SetUp -> List Call
  | unfetched cause => [.fetch (.error cause)]
  | unlisted topology cause => [.fetch (.ok topology), .peers (.error cause)]
  | listed topology roster => [.fetch (.ok topology), .peers (.ok roster)]

variable {setUp : SetUp} {directory : Directory} {elapsed : Nat} {address : String}

@[simp] theorem calls_exchanges :
    Round.calls (setUp.exchanges directory elapsed) = setUp.calls := by
  cases setUp <;> rfl

@[simp] theorem transitions_exchanges :
    transitions (setUp.exchanges directory elapsed) = [] := by
  cases setUp <;> rfl

@[simp] theorem readings_exchanges : readings (setUp.exchanges directory elapsed) = [] := by
  cases setUp <;> rfl

@[simp] theorem metricExchanges_exchanges :
    metricExchanges (setUp.exchanges directory elapsed) = [] := by
  cases setUp <;> rfl

theorem shard_eq_topology_iff (address : String) {cause : ClientError} :
    setUp.shard address = .error (.topology cause) <->
      setUp = .unfetched cause ∨ exists topology, setUp = .unlisted topology cause := by
  cases setUp with
  | unfetched => simp [shard]
  | unlisted => simp [shard]
  | listed topology roster => simp [shard, Shard.plan_eq_error_iff]

theorem shard_eq_notInRoster_iff {other : String} {size : Nat} :
    setUp.shard address = .error (.notInRoster other size) <->
      other = address ∧ exists topology roster, setUp = .listed topology roster ∧
        size = roster.size ∧ roster.addresses ≠ [] ∧ address ∉ roster.addresses := by
  cases setUp with
  | unfetched => simp [shard]
  | unlisted => simp [shard]
  | listed topology roster => simp [shard, Shard.plan_eq_error_iff, and_assoc]

theorem shard_eq_ok {shard : Shard} (h : setUp.shard address = .ok shard) :
    exists topology roster, setUp = .listed topology roster ∧
      Shard.plan topology roster address = .ok shard := by
  cases setUp with
  | unfetched => cases h
  | unlisted => cases h
  | listed topology roster => exact ⟨topology, roster, rfl, h⟩

end SetUp

/-!
# Probing
-/

def Question.Probes : Question -> Prop
  | .metric _ => True
  | .read _ => True
  | _ => False

theorem calls_of_probes
    (h : forall exchange, exchange ∈ exchanges -> exchange.question.Probes) :
    calls exchanges = (readings exchanges).map Call.ofReading := by
  rw [calls, readings, List.map_filterMap]
  apply List.filterMap_congr
  rintro ⟨question, answer⟩ hexchange
  have hprobes := h _ hexchange
  cases question with
  | metric question => rfl
  | read partition => rfl
  | _ => cases hprobes

theorem transitions_of_probes
    (h : forall exchange, exchange ∈ exchanges -> exchange.question.Probes) :
    transitions exchanges = [] := by
  rw [transitions, List.filterMap_eq_nil_iff]
  rintro ⟨question, answer⟩ hexchange
  have hprobes := h _ hexchange
  cases question with
  | metric question => rfl
  | read partition => rfl
  | _ => cases hprobes

namespace Sweep

variable {sweep : Sweep} {shard : Shard} {ending : Ending} {tally : Metric.Tally}
variable {partitions : List Partition} {result : Option Metric.Tally}

theorem probes_probed (h : Conversation (probeAll tally partitions) exchanges result) :
    forall exchange, exchange ∈ exchanges -> exchange.question.Probes :=
  h.asks (asks_probeAll (fun _ => True) trivial trivial (fun _ _ => trivial)
    (fun _ => trivial) tally partitions)

/-!
# The parts of a round
-/

theorem views_finish (h : Conversation (sweep.finish shard tally) exchanges ending) :
    calls exchanges = [.close] ∧ readings exchanges = [] ∧
      transitions exchanges = [(.probing, .reporting), (.reporting, .done)] := by
  rcases finish_inv h with ⟨latency, shown, _, rfl, _, _⟩
  simp [Exchange.entered, Exchange.released, Simulated.Bench.transition?]

theorem Measured.calls_eq (h : Measured sweep shard exchanges ending) :
    calls exchanges = (readings exchanges).map Call.ofReading ++ [.close] := by
  rcases h with ⟨_, hprobes⟩ | ⟨_, hprobes, hfinishes⟩
  · simp [Exchange.planned, Exchange.entered, Exchange.released,
      calls_of_probes (probes_probed hprobes)]
  · rcases views_finish hfinishes with ⟨hcalls, hreadings, _⟩
    simp [Exchange.planned, Exchange.entered, calls_of_probes (probes_probed hprobes), hcalls,
      hreadings]

theorem Measured.ne_refused (h : Measured sweep shard exchanges ending) (error : SetupError) :
    ending ≠ .refused error := by
  rcases h with ⟨_, _⟩ | ⟨_, _, hfinishes⟩
  · nofun
  · rcases finish_inv hfinishes with ⟨_, _, _, _, _, rfl⟩
    nofun

/-- What measuring a shard asks of the metric space, and what it reads, with the way it ends. -/
inductive Recorded (sweep : Sweep) (shard : Shard) :
    List (Dialogue.Exchange Metric.Question Metric.Answer) -> List (Partition × Read) ->
      Ending -> Prop where
  | crashed {started : List (Dialogue.Exchange Metric.Question Metric.Answer)}
      {tally : Metric.Tally} {probed : List Exchange}
      (starts : Conversation (Metric.Tally.start sweep.publisher shard.topics) started tally)
      (probes : Conversation (probeAll tally shard.topics.partitions) probed none) :
      Recorded sweep shard (started ++ metricExchanges probed) (Round.readings probed) .crashed
  | completed {started shown : List (Dialogue.Exchange Metric.Question Metric.Answer)}
      {tally final : Metric.Tally} {probed : List Exchange} {latency : Metric.Statistics}
      {key : Option String}
      (starts : Conversation (Metric.Tally.start sweep.publisher shard.topics) started tally)
      (probes : Conversation (probeAll tally shard.topics.partitions) probed (some final))
      (shows : Conversation (sweep.publisher.showAvailability final.availability) shown key) :
      Recorded sweep shard
        ((started ++ metricExchanges probed) ++ ⟨.read final.overall, latency⟩ :: shown)
        (Round.readings probed)
        (.completed (sweep.outcome shard (final.summaryOf latency)))

theorem Measured.records (h : Measured sweep shard exchanges ending) :
    Recorded sweep shard (metricExchanges exchanges) (readings exchanges) ending := by
  rcases h with ⟨hstarts, hprobes⟩ | ⟨hstarts, hprobes, hfinishes⟩
  · simpa [Exchange.planned, Exchange.entered, Exchange.released] using
      Recorded.crashed hstarts hprobes
  · rcases finish_inv hfinishes with ⟨latency, shown, key, rfl, hshows, rfl⟩
    simpa [Exchange.planned, Exchange.entered, Exchange.released] using
      Recorded.completed hstarts hprobes hshows

section Recorded

variable {readings : List (Partition × Read)}

theorem Recorded.crashed_iff (h : Recorded sweep shard recorded readings ending) :
    ending = .crashed <-> exists partition, (partition, .crashed) ∈ readings := by
  cases h with
  | crashed _ hprobes =>
      rcases probeAll_none_inv hprobes with ⟨finished, partition, hreadings, _, _⟩
      refine iff_of_true rfl ⟨partition, ?_⟩
      simp [hreadings]
  | completed _ hprobes _ =>
      rcases probeAll_some_inv hprobes with ⟨_, hfinished, _⟩
      refine iff_of_false (by rintro ⟨⟩) ?_
      rintro ⟨partition, hcrashed⟩
      exact hfinished (partition, .crashed) hcrashed rfl

theorem Recorded.reads_prefix (h : Recorded sweep shard recorded readings ending) :
    readings.map Prod.fst <+: shard.topics.partitions := by
  cases h with
  | crashed _ hprobes =>
      rcases probeAll_none_inv hprobes with ⟨_, _, _, _, hreads⟩
      exact hreads
  | completed _ hprobes _ =>
      rcases probeAll_some_inv hprobes with ⟨hreads, _, _⟩
      exact hreads ▸ List.prefix_rfl

def outcomeOf (sweep : Sweep) (shard : Shard) (reads : List Read)
    (latency : Metric.Statistics) : Outcome :=
  let failures := reads.countP Read.isFailure
  sweep.outcome shard {
    tries := reads.length
    failures
    availability := Metric.availability reads.length failures
    overall := latency }

theorem Recorded.completed_inv {outcome : Outcome}
    (h : Recorded sweep shard recorded readings (.completed outcome)) :
    readings.map Prod.fst = shard.topics.partitions ∧
      exists latency, outcome = sweep.outcomeOf shard (readings.map Prod.snd) latency := by
  rcases h with _ | @⟨_, _, _, final, _, latency, _, hstarts, hprobes, _⟩
  rcases probeAll_some_inv hprobes with ⟨hreads, _, hcounts⟩
  rcases Prod.mk.inj (Metric.Tally.counts_start hstarts) with ⟨htries, hfailures⟩
  rw [htries, hfailures, Nat.zero_add, Nat.zero_add, <- hreads, List.length_map] at hcounts
  refine ⟨hreads, latency, ?_⟩
  rcases Prod.mk.inj hcounts with ⟨htries, hfailures⟩
  rw [outcomeOf, Metric.Tally.summaryOf, Metric.Tally.availability, List.length_map,
    List.countP_map, htries, hfailures]
  rfl

end Recorded

theorem Measured.completed_inv {outcome : Outcome}
    (h : Measured sweep shard exchanges (.completed outcome)) :
    (readings exchanges).map Prod.fst = shard.topics.partitions ∧
      transitions exchanges =
        [(.planning, .probing), (.probing, .reporting), (.reporting, .done)] ∧
      exists latency,
        outcome = sweep.outcomeOf shard ((readings exchanges).map Prod.snd) latency := by
  rcases h.records.completed_inv with ⟨hreads, houtcome⟩
  refine ⟨hreads, ?_, houtcome⟩
  rcases h with _ | ⟨_, hprobes, hfinishes⟩
  rcases views_finish hfinishes with ⟨_, _, htransitions⟩
  simp [Exchange.planned, Exchange.entered, Simulated.Bench.transition?,
    transitions_of_probes (probes_probed hprobes), htransitions]

end Sweep

/-!
# The protocol
-/

namespace Member

variable {World : Type}

def calls (member : Member World) : List Call :=
  Round.calls member.transcript

def transitions (member : Member World) : List (Stage × Stage) :=
  Round.transitions member.transcript

def readings (member : Member World) : List (Partition × Read) :=
  Round.readings member.transcript

def stageAfter (member : Member World) (before : Stage) : Option Stage :=
  Simulated.Bench.stageAfter (some before) member.transitions

def sceneAfter (member : Member World) : Scene World :=
  (Scene.play member.surroundings member.sweep.round member.scene).2

end Member

structure Unmeasured {World : Type} (member : Member World) : Prop where
  readings : member.readings = []
  window : forall handle,
    member.sceneAfter.space.window? handle = member.scene.space.window? handle
  transitions : member.transitions = [(.idle, .planning)]
  stage : forall before, member.stageAfter before = some .planning

structure MeasuredAll {World : Type} (member : Member World) (shard : Shard)
    (outcome : Outcome) : Prop where
  readings : member.readings.map Prod.fst = shard.topics.partitions
  tries : outcome.tries = member.readings.length
  assigned : outcome.assignedPartitions = member.readings.length
  failures : outcome.failures =
    member.readings.countP fun reading => reading.2.isFailure
  transitions : member.transitions =
    [(.idle, .planning), (.planning, .probing), (.probing, .reporting), (.reporting, .done)]
  stage : forall before, member.stageAfter before = some .done

structure Protocol {World : Type} (member : Member World) (setUp : SetUp) : Prop where
  /-- One fetch comes first, at most one look-up follows a good fetch, one release is last. -/
  calls : member.calls =
    setUp.calls ++ (member.readings.map Call.ofReading ++ [.close])
  topology_iff : forall cause, member.ending = .refused (.topology cause) <->
    setUp = .unfetched cause ∨ exists topology, setUp = .unlisted topology cause
  notInRoster_iff : forall address size,
    member.ending = .refused (.notInRoster address size) <->
      address = member.sweep.address ∧
        exists topology roster, setUp = .listed topology roster ∧ size = roster.size ∧
          roster.addresses ≠ [] ∧ member.sweep.address ∉ roster.addresses
  refused : forall error, member.ending = .refused error -> Unmeasured member
  /-- Nothing but a read that crashes breaks a round off. -/
  crashed_iff : member.ending = .crashed <->
    exists partition, (partition, .crashed) ∈ member.readings
  /-- By then it has read the beginning of its plan. -/
  crashed : member.ending = .crashed ->
    exists topology roster shard, setUp = .listed topology roster ∧
      Shard.plan topology roster member.sweep.address = .ok shard ∧
        member.readings.map Prod.fst <+: shard.topics.partitions
  completed : forall outcome, member.ending = .completed outcome ->
    exists topology roster shard, setUp = .listed topology roster ∧
      Shard.plan topology roster member.sweep.address = .ok shard ∧
        MeasuredAll member shard outcome

variable {World : Type}

theorem Scene.window?_play {Value : Type} {surroundings : Surroundings World}
    {asking : Asking Value} {scene : Scene World}
    (h : forall exchange, exchange ∈ asking.transcript (reply surroundings) scene ->
      exchange.question.OnMetric Metric.Question.Shows) (handle : Metric.Handle) :
    (play surroundings asking scene).2.space.window? handle = scene.space.window? handle := by
  rcases Dialogue.givenBy_transcript (reply surroundings) asking scene with ⟨hgiven, hafter⟩
  rw [play, <- hafter]
  refine (hgiven.keeps
    (fun after : Scene World => after.space.window? handle = scene.space.window? handle)
    (fun _ => True) ?_ h rfl).2
  intro question after hspares hkept
  refine ⟨trivial, ?_⟩
  cases question with
  | metric question => exact (Metric.Space.window?_reply_of_shows hspares _ _).trans hkept
  | peers directory => cases directory <;> exact hkept
  | _ => exact hkept

theorem Member.unmeasured {member : Member World} {elapsed : Nat} {setUp : SetUp}
    {shown : List (Dialogue.Exchange Metric.Question Metric.Answer)} {key : Option String}
    (htranscript : member.transcript =
      .entered member.sweep.role .idle .planning ::
        (setUp.exchanges member.sweep.directory elapsed ++
          .released :: shown.map Exchange.ofMetric))
    (hshows : Conversation (member.sweep.publisher.showAvailability (some 0)) shown key) :
    Unmeasured member := by
  have htransitions : member.transitions = [(.idle, .planning)] := by
    rw [transitions, htranscript]
    simp [Exchange.entered, Exchange.released, Simulated.Bench.transition?]
  have hshown : forall exchange, exchange ∈ shown -> exchange.question.Shows :=
    hshows.asks (Metric.Publisher.asks_showAvailability _ trivial fun _ => trivial)
  refine ⟨?_, ?_, htransitions, ?_⟩
  · rw [readings, htranscript]
    simp [Exchange.entered, Exchange.released]
  · refine Scene.window?_play ?_
    show forall exchange, exchange ∈ member.transcript ->
      exchange.question.OnMetric Metric.Question.Shows
    rw [htranscript]
    simp only [List.forall_mem_cons, List.forall_mem_append, List.forall_mem_map]
    refine ⟨trivial, ?_, trivial, hshown⟩
    cases setUp <;> simp [SetUp.exchanges, Question.OnMetric]
  · intro before
    rw [stageAfter, htransitions]
    rfl

theorem Member.measuredAll {member : Member World} {elapsed : Nat} {setUp : SetUp}
    {shard : Shard} {measuring : List Exchange} {outcome : Outcome}
    (htranscript : member.transcript =
      .entered member.sweep.role .idle .planning ::
        (setUp.exchanges member.sweep.directory elapsed ++ measuring))
    (hmeasures : Sweep.Measured member.sweep shard measuring (.completed outcome)) :
    MeasuredAll member shard outcome := by
  rcases hmeasures.completed_inv with ⟨hreads, hstages, latency, rfl⟩
  have hreadings : member.readings = Round.readings measuring := by
    rw [readings, htranscript]
    simp [Exchange.entered]
  have htransitions : member.transitions =
      [(.idle, .planning), (.planning, .probing), (.probing, .reporting),
        (.reporting, .done)] := by
    rw [transitions, htranscript]
    simp [Exchange.entered, Simulated.Bench.transition?, hstages]
  refine ⟨hreadings ▸ hreads, ?_, ?_, ?_, htransitions, ?_⟩
  · rw [hreadings]
    exact List.length_map _
  · rw [hreadings, <- List.length_map Prod.fst, hreads, Topology.length_partitions]
    rfl
  · rw [hreadings]
    exact List.countP_map
  · intro before
    rw [stageAfter, htransitions]
    rfl

/-- A round keeps to its protocol, whatever the rounds before it left behind. -/
theorem Member.keeps_protocol (member : Member World) :
    exists setUp, Protocol member setUp := by
  have hway : Sweep.Way member.sweep member.transcript member.ending :=
    Sweep.round_way (Dialogue.conversation_run _ _ _)
  generalize htranscript : member.transcript = exchanges,
    hending : member.ending = ending at hway
  rcases hway with @⟨elapsed, setUp, error, shown, key, hplan, hshows⟩ |
    @⟨elapsed, setUp, shard, measuring, _, hplan, hmeasures⟩
  · have hunmeasured := unmeasured htranscript hshows
    refine ⟨setUp, ?_, ?_, ?_, ?_, ?_, ?_, ?_⟩
    · rw [hunmeasured.readings, calls, htranscript]
      simp [Exchange.entered, Exchange.released]
    · intro cause
      rw [hending, <- SetUp.shard_eq_topology_iff member.sweep.address, hplan]
      simp
    · intro address size
      rw [hending, <- SetUp.shard_eq_notInRoster_iff, hplan]
      simp
    · exact fun _ _ => hunmeasured
    · rw [hending, hunmeasured.readings]
      simp
    · intro hcrashed
      cases hending.symm.trans hcrashed
    · intro outcome hcompleted
      cases hending.symm.trans hcompleted
  · have hreadings : member.readings = Round.readings measuring := by
      rw [readings, htranscript]
      simp [Exchange.entered]
    refine ⟨setUp, ?_, ?_, ?_, ?_, ?_, ?_, ?_⟩
    · rw [hreadings, calls, htranscript]
      simp [Exchange.entered, hmeasures.calls_eq]
    · intro cause
      rw [hending, <- SetUp.shard_eq_topology_iff member.sweep.address, hplan]
      exact iff_of_false (hmeasures.ne_refused _) nofun
    · intro address size
      rw [hending, <- SetUp.shard_eq_notInRoster_iff, hplan]
      exact iff_of_false (hmeasures.ne_refused _) nofun
    · exact fun error hrefused => absurd (hending.symm.trans hrefused) (hmeasures.ne_refused error)
    · rw [hending, hreadings]
      exact hmeasures.records.crashed_iff
    · intro _
      rcases SetUp.shard_eq_ok hplan with ⟨topology, roster, rfl, hshard⟩
      exact ⟨topology, roster, shard, rfl, hshard, hreadings ▸ hmeasures.records.reads_prefix⟩
    · intro outcome hcompleted
      cases hending.symm.trans hcompleted
      rcases SetUp.shard_eq_ok hplan with ⟨topology, roster, rfl, hshard⟩
      exact ⟨topology, roster, shard, rfl, hshard, measuredAll htranscript hmeasures⟩

end Round

end BrokerProbe
