import BrokerProbe.Metric.Tally
import BrokerProbe.Proofs.Metric.Traffic
/-!
# What a tally asks

A tally claims windows under latency keys only, whatever it is answered.  With
all metrics published and every window granted it names each window by its key:
it claims the windows of its plan in order, and then records every outcome three
times, overall, for the topic and for the partition.
-/

namespace BrokerProbe

namespace Metric

open Dialogue (Conversation Exchange)

variable {publisher : Publisher} {exchanges : List (Exchange Question Answer)}

/-!
# What is claimed
-/

section Asks

variable (allowed : Kind -> Prop)

theorem Publisher.asks_window {key : Key} (h : allowed key.kind) (capacity : Nat) :
    (publisher.window key capacity).Asks (Question.Claims allowed) := by
  unfold Publisher.window
  split
  · refine Dialogue.Asks.bind (Dialogue.asks_request.mpr ⟨key, rfl, h⟩) ?_
    intro answer
    cases answer with
    | ok handle => exact ⟨trivial, fun _ => trivial⟩
    | error error => exact ⟨trivial, fun _ => trivial⟩
  · exact ⟨trivial, fun _ => trivial⟩

theorem Publisher.asks_showAvailability {kind : Question -> Prop} (ratio : Option Float)
    (hgauge : kind (.gauge (Key.availability publisher.role).encode))
    (hset : forall value, kind (.set (Key.availability publisher.role).encode value)) :
    (publisher.showAvailability ratio).Asks kind := by
  unfold Publisher.showAvailability
  split
  · cases ratio with
    | none => trivial
    | some ratio =>
        refine Dialogue.Asks.bind (Dialogue.asks_request.mpr hgauge) ?_
        intro answer
        cases answer with
        | ok shown => exact ⟨hset ratio, fun _ => trivial⟩
        | error error => trivial
  · trivial

theorem Publisher.asks_showAvailability_fits (ratio : Option Float) :
    (publisher.showAvailability ratio).Asks Question.Fits :=
  asks_showAvailability ratio ⟨_, rfl, rfl⟩ fun _ => trivial

namespace Tally

variable (htopic : allowed .topicLatency) (hpartition : allowed .partitionLatency)

include hpartition

theorem asks_claimPartition (tally : Tally) (partition : Partition) :
    (tally.claimPartition partition).Asks (Question.Claims allowed) :=
  (Publisher.asks_window allowed hpartition _).bind fun _ => Dialogue.asks_done

theorem asks_recordPartition (tally : Tally) (partition : Partition) (elapsed : Nat) :
    (tally.recordPartition partition elapsed).Asks (Question.Claims allowed) := by
  unfold recordPartition
  split
  · exact ⟨trivial, fun _ => trivial⟩
  · exact (Publisher.asks_window allowed hpartition _).bind fun _ => ⟨trivial, fun _ => trivial⟩

include htopic

omit hpartition in
theorem asks_recordTopic (tally : Tally) (name : String) (elapsed : Nat) :
    (tally.recordTopic name elapsed).Asks (Question.Claims allowed) := by
  unfold recordTopic
  split
  · exact ⟨trivial, fun _ => trivial⟩
  · exact (Publisher.asks_window allowed htopic _).bind fun _ => ⟨trivial, fun _ => trivial⟩

theorem asks_plan (tally : Tally) (topic : Topic) :
    (tally.plan topic).Asks (Question.Claims allowed) :=
  ((Publisher.asks_window allowed htopic _).bind fun _ => Dialogue.asks_done).bind fun tally =>
    Dialogue.Asks.foldlM (asks_claimPartition allowed hpartition) tally topic.partitions

theorem asks_start (hlatency : allowed .latency) (publisher : Publisher) (topics : Topology) :
    (start publisher topics).Asks (Question.Claims allowed) :=
  (Publisher.asks_window allowed hlatency _).bind fun _ =>
    Dialogue.Asks.foldlM (asks_plan allowed htopic hpartition) _ topics

theorem asks_recordOutcome (tally : Tally) (outcome : Probe.Outcome) :
    (tally.recordOutcome outcome).Asks (Question.Claims allowed) :=
  ⟨trivial, fun _ => (asks_recordTopic allowed htopic _ _ _).bind fun tally =>
    asks_recordPartition allowed hpartition tally _ _⟩

end Tally

end Asks

namespace Tally

/-!
# Counts
-/

variable {tally after : Tally}

def counts (tally : Tally) : Nat × Nat :=
  (tally.tries, tally.failures)

theorem counts_count (outcome : Probe.Outcome) :
    (tally.count outcome).counts =
      (tally.tries + 1, tally.failures + if outcome.isFailure then 1 else 0) := by
  unfold count counts
  split
  · rfl
  · rfl

theorem counts_claimPartition {partition : Partition}
    (h : Conversation (tally.claimPartition partition) exchanges after) :
    after.counts = tally.counts := by
  rcases h.bind_inv with ⟨_, handle, rest, rfl, _, hdone⟩
  rcases hdone.done_inv with ⟨rfl, rfl⟩
  rfl

theorem counts_plan {topic : Topic} (h : Conversation (tally.plan topic) exchanges after) :
    after.counts = tally.counts := by
  rcases h.bind_inv with ⟨_, claimed, rest, rfl, hclaimed, hrest⟩
  rcases hclaimed.bind_inv with ⟨_, handle, nothing, rfl, _, hdone⟩
  rcases hdone.done_inv with ⟨rfl, rfl⟩
  exact hrest.foldlM_keeps (fun after => after.counts = tally.counts)
    (fun before hstep => (counts_claimPartition hstep).trans before) rfl

theorem counts_start {topics : Topology}
    (h : Conversation (start publisher topics) exchanges after) : after.counts = (0, 0) := by
  rcases h.bind_inv with ⟨_, handle, rest, rfl, _, hrest⟩
  exact hrest.foldlM_keeps (fun after => after.counts = (0, 0))
    (fun before hstep => (counts_plan hstep).trans before) rfl

theorem record_then_inv {handle : Handle} {value : Nat} {result : Tally}
    (h : Conversation (Recording.record handle value >>= fun _ => pure result) exchanges after) :
    after = result := by
  rcases h.request_bind_inv with ⟨_, rest, rfl, hdone⟩
  exact hdone.done_inv.2

theorem counts_recordTopic {name : String} {elapsed : Nat}
    (h : Conversation (tally.recordTopic name elapsed) exchanges after) :
    after.counts = tally.counts := by
  unfold recordTopic at h
  split at h
  · rw [record_then_inv h]
  · rcases h.bind_inv with ⟨_, handle, rest, rfl, _, hrest⟩
    rw [record_then_inv hrest, counts, counts]

theorem counts_recordPartition {partition : Partition} {elapsed : Nat}
    (h : Conversation (tally.recordPartition partition elapsed) exchanges after) :
    after.counts = tally.counts := by
  unfold recordPartition at h
  split at h
  · rw [record_then_inv h]
  · rcases h.bind_inv with ⟨_, handle, rest, rfl, _, hrest⟩
    rw [record_then_inv hrest, counts, counts]

theorem counts_recordOutcome {outcome : Probe.Outcome}
    (h : Conversation (tally.recordOutcome outcome) exchanges after) :
    after.counts = (tally.count outcome).counts := by
  rcases h.request_bind_inv with ⟨_, rest, rfl, hrest⟩
  rcases hrest.bind_inv with ⟨_, named, later, rfl, htopic, hpartition⟩
  rw [counts_recordPartition hpartition, counts_recordTopic htopic]

def summaryOf (tally : Tally) (latency : Statistics) : Summary :=
  { tries := tally.tries
    failures := tally.failures
    availability := tally.availability
    overall := latency }

theorem summary_inv {summary : Summary} (h : Conversation tally.summary exchanges summary) :
    exists latency, exchanges = [⟨.read tally.overall, latency⟩] ∧
      summary = tally.summaryOf latency := by
  rcases h.request_bind_inv with ⟨latency, rest, rfl, hdone⟩
  rcases hdone.done_inv with ⟨rfl, rfl⟩
  exact ⟨latency, rfl, rfl⟩

/-!
# Windows under their keys
-/

/-- A tally whose windows are all published, each under its own key. -/
def published (publisher : Publisher) (names : List String) (partitions : List Partition)
    (tries failures : Nat) : Tally :=
  { publisher
    overall := .published (Key.latency publisher.role).encode
    topics := names.map fun name =>
      (name, .published (Key.topic publisher.role name).encode)
    partitions := partitions.map fun partition =>
      (partition, .published (Key.partition publisher.role partition).encode)
    tries
    failures }

def claim (key : Key) (capacity : Nat) : List Question :=
  [.window key.encode capacity, .resize (.published key.encode) capacity]

def partitionClaim (role : Role) (partition : Partition) : List Question :=
  claim (.partition role partition) partitionCapacity

def topicClaims (role : Role) (topic : Topic) : List Question :=
  claim (.topic role topic.name) topic.partitionCount ++
    topic.partitions.flatMap (partitionClaim role)

def claims (role : Role) (topics : Topology) : List Question :=
  claim (.latency role) topics.partitionCount ++ topics.flatMap (topicClaims role)

def records (role : Role) (sample : Partition × Nat) : List Question :=
  [.record (.published (Key.latency role).encode) sample.2,
    .record (.published (Key.topic role sample.1.topic).encode) sample.2,
    .record (.published (Key.partition role sample.1).encode) sample.2]

end Tally

theorem Publisher.window_inv {key : Key} {capacity : Nat} {handle : Handle}
    (hflags : publisher.flags = .all)
    (h : Conversation (publisher.window key capacity) exchanges handle)
    (hgranted : forall exchange, exchange ∈ exchanges -> Granted exchange) :
    handle = .published key.encode ∧
      exchanges.map Exchange.question = Tally.claim key capacity := by
  have henabled : publisher.flags.enabled key.kind = true := by
    rw [hflags]
    cases key.kind <;> rfl
  unfold Publisher.window at h
  rw [if_pos henabled] at h
  rcases h.request_bind_inv with ⟨answer, rest, rfl, hgiven⟩
  cases show answer = .ok (.published key.encode) from hgranted _ List.mem_cons_self
  rcases hgiven.request_bind_inv with ⟨_, rest, rfl, hresized⟩
  rcases hresized.done_inv with ⟨rfl, rfl⟩
  exact ⟨rfl, rfl⟩

namespace Tally

variable {names : List String} {partitions : List Partition} {tries failures : Nat}
variable {tally : Tally}

theorem claimPartition_inv {partition : Partition} (hflags : publisher.flags = .all)
    (h : Conversation
      ((published publisher names partitions tries failures).claimPartition partition)
      exchanges tally)
    (hgranted : forall exchange, exchange ∈ exchanges -> Granted exchange) :
    tally = published publisher names (partition :: partitions) tries failures ∧
      exchanges.map Exchange.question = partitionClaim publisher.role partition := by
  rcases h.bind_inv with ⟨first, handle, rest, rfl, hwindow, h⟩
  rcases h.done_inv with ⟨rfl, rfl⟩
  rw [List.append_nil] at hgranted ⊢
  rcases Publisher.window_inv hflags hwindow hgranted with ⟨rfl, hasked⟩
  exact ⟨rfl, hasked⟩

theorem claimPartitions_inv {added : List Partition} (hflags : publisher.flags = .all)
    (h : Conversation
      (added.foldlM claimPartition (published publisher names partitions tries failures))
      exchanges tally)
    (hgranted : forall exchange, exchange ∈ exchanges -> Granted exchange) :
    tally = published publisher names (added.reverse ++ partitions) tries failures ∧
      exchanges.map Exchange.question = added.flatMap (partitionClaim publisher.role) := by
  induction added generalizing partitions exchanges with
  | nil =>
      rcases h.done_inv with ⟨rfl, rfl⟩
      exact ⟨rfl, rfl⟩
  | cons partition rest ih =>
      rw [List.foldlM_cons] at h
      rcases h.bind_inv with ⟨first, claimed, later, rfl, hfirst, hlater⟩
      rw [List.forall_mem_append] at hgranted
      rcases claimPartition_inv hflags hfirst hgranted.1 with ⟨rfl, hasked⟩
      rcases ih hlater hgranted.2 with ⟨rfl, hrest⟩
      refine ⟨by simp, ?_⟩
      rw [List.map_append, hasked, hrest, List.flatMap_cons]

theorem plan_inv {topic : Topic} (hflags : publisher.flags = .all)
    (h : Conversation
      ((published publisher names partitions tries failures).plan topic) exchanges tally)
    (hgranted : forall exchange, exchange ∈ exchanges -> Granted exchange) :
    tally = published publisher (topic.name :: names)
        (topic.partitions.reverse ++ partitions) tries failures ∧
      exchanges.map Exchange.question = topicClaims publisher.role topic := by
  rcases h.bind_inv with ⟨first, claimed, rest, rfl, hfirst, hrest⟩
  rcases hfirst.bind_inv with ⟨first, handle, nothing, rfl, hwindow, hdone⟩
  rcases hdone.done_inv with ⟨rfl, rfl⟩
  rw [List.append_nil] at hgranted ⊢
  rw [List.forall_mem_append] at hgranted
  rcases Publisher.window_inv hflags hwindow hgranted.1 with ⟨rfl, hasked⟩
  have hclaims : Conversation
      (topic.partitions.foldlM claimPartition
        (published publisher (topic.name :: names) partitions tries failures))
      rest tally := hrest
  rcases claimPartitions_inv hflags hclaims hgranted.2 with ⟨rfl, hlater⟩
  refine ⟨rfl, ?_⟩
  rw [List.map_append, hasked, hlater]
  rfl

theorem planAll_inv {topics : Topology} (hflags : publisher.flags = .all)
    (h : Conversation
      (topics.foldlM plan (published publisher names partitions tries failures))
      exchanges tally)
    (hgranted : forall exchange, exchange ∈ exchanges -> Granted exchange) :
    tally = published publisher ((topics.map Topic.name).reverse ++ names)
        (topics.partitions.reverse ++ partitions) tries failures ∧
      exchanges.map Exchange.question = topics.flatMap (topicClaims publisher.role) := by
  induction topics generalizing names partitions exchanges with
  | nil =>
      rcases h.done_inv with ⟨rfl, rfl⟩
      exact ⟨rfl, rfl⟩
  | cons topic rest ih =>
      rw [List.foldlM_cons] at h
      rcases h.bind_inv with ⟨first, planned, later, rfl, hfirst, hlater⟩
      rw [List.forall_mem_append] at hgranted
      rcases plan_inv hflags hfirst hgranted.1 with ⟨rfl, hasked⟩
      rcases ih hlater hgranted.2 with ⟨rfl, hrest⟩
      refine ⟨by simp [Topology.partitions], ?_⟩
      rw [List.map_append, hasked, hrest, List.flatMap_cons]

theorem start_inv {topics : Topology} (hflags : publisher.flags = .all)
    (h : Conversation (start publisher topics) exchanges tally)
    (hgranted : forall exchange, exchange ∈ exchanges -> Granted exchange) :
    tally = published publisher (topics.map Topic.name).reverse topics.partitions.reverse 0 0 ∧
      exchanges.map Exchange.question = claims publisher.role topics := by
  rcases h.bind_inv with ⟨first, handle, rest, rfl, hwindow, hrest⟩
  rw [List.forall_mem_append] at hgranted
  rcases Publisher.window_inv hflags hwindow hgranted.1 with ⟨rfl, hasked⟩
  have hplans : Conversation (topics.foldlM plan (published publisher [] [] 0 0)) rest tally :=
    hrest
  rcases planAll_inv hflags hplans hgranted.2 with ⟨rfl, hlater⟩
  refine ⟨by simp, ?_⟩
  rw [List.map_append, hasked, hlater]
  rfl

theorem lookup_map_of_mem {α : Type} [BEq α] [LawfulBEq α] {β : Type} (give : α -> β)
    {key : α} {keys : List α} (h : key ∈ keys) :
    (keys.map fun key => (key, give key)).lookup key = some (give key) := by
  induction keys with
  | nil => cases h
  | cons first rest ih =>
      rw [List.map_cons, List.lookup_cons]
      by_cases heq : key = first
      · simp [heq]
      · rw [beq_eq_false_iff_ne.mpr heq]
        exact ih ((List.mem_cons.mp h).resolve_left heq)

theorem recordOutcome_inv {outcome : Probe.Outcome}
    (hname : outcome.partition.topic ∈ names) (hpartition : outcome.partition ∈ partitions)
    (h : Conversation
      ((published publisher names partitions tries failures).recordOutcome outcome)
      exchanges tally) :
    tally = (published publisher names partitions tries failures).count outcome ∧
      exchanges.map Exchange.question =
        records publisher.role (outcome.partition, outcome.recorded) := by
  rcases h.request_bind_inv with ⟨_, rest, rfl, hrest⟩
  rcases hrest.bind_inv with ⟨second, later, third, rfl, hsecond, hthird⟩
  simp only [recordTopic, count, published, lookup_map_of_mem _ hname] at hsecond
  rcases hsecond.request_bind_inv with ⟨_, nothing, rfl, htopic⟩
  rcases htopic.done_inv with ⟨rfl, rfl⟩
  simp only [recordPartition, lookup_map_of_mem _ hpartition] at hthird
  rcases hthird.request_bind_inv with ⟨_, nothing, rfl, hrecorded⟩
  rcases hrecorded.done_inv with ⟨rfl, rfl⟩
  exact ⟨rfl, rfl⟩

end Tally

end Metric

end BrokerProbe
