import BrokerProbe.Metric.Publisher
import BrokerProbe.Probe.Outcome
/-!
# Tallies

A tally records the outcomes of one round on three levels: all partitions
together, each topic, and each partition.  A window holds one sweep: as many
samples as there are partitions on its level.
-/

namespace BrokerProbe

namespace Metric

/-- The windows of one round and the counts so far; the latest window of a name stands first. -/
structure Tally where
  publisher : Publisher
  overall : Handle
  topics : List (String × Handle)
  partitions : List (Partition × Handle)
  tries : Nat
  failures : Nat
  deriving Repr, Inhabited

structure Summary where
  tries : Nat
  failures : Nat
  availability : Option Float
  overall : Statistics

namespace Tally

def partitionCapacity : Nat := 1

def unplannedCapacity : Nat := 1

def claimPartition (tally : Tally) (partition : Partition) : Recording Tally := do
  let handle <- tally.publisher.window (.partition tally.publisher.role partition)
    partitionCapacity
  return { tally with partitions := (partition, handle) :: tally.partitions }

def claimTopic (tally : Tally) (name : String) (capacity : Nat) : Recording Tally := do
  let handle <- tally.publisher.window (.topic tally.publisher.role name) capacity
  return { tally with topics := (name, handle) :: tally.topics }

def plan (tally : Tally) (topic : Topic) : Recording Tally := do
  let tally <- tally.claimTopic topic.name topic.partitionCount
  topic.partitions.foldlM claimPartition tally

def start (publisher : Publisher) (topics : Topology) : Recording Tally := do
  let overall <- publisher.window (.latency publisher.role) topics.partitionCount
  topics.foldlM plan
    { publisher, overall, topics := [], partitions := [], tries := 0, failures := 0 }

def recordOverall (tally : Tally) (elapsed : Nat) : Recording Unit :=
  Recording.record tally.overall elapsed

/-- Records for a topic, whose window is claimed now if it was not planned. -/
def recordTopic (tally : Tally) (name : String) (elapsed : Nat) : Recording Tally := do
  match tally.topics.lookup name with
  | some handle =>
      Recording.record handle elapsed
      return tally
  | none =>
      let handle <- tally.publisher.window (.topic tally.publisher.role name) unplannedCapacity
      Recording.record handle elapsed
      return { tally with topics := (name, handle) :: tally.topics }

def recordPartition (tally : Tally) (partition : Partition) (elapsed : Nat) :
    Recording Tally := do
  match tally.partitions.lookup partition with
  | some handle =>
      Recording.record handle elapsed
      return tally
  | none =>
      let handle <- tally.publisher.window (.partition tally.publisher.role partition)
        partitionCapacity
      Recording.record handle elapsed
      return { tally with partitions := (partition, handle) :: tally.partitions }

/-- Counts an outcome without recording its latency. -/
def count (tally : Tally) (outcome : Probe.Outcome) : Tally :=
  { tally with
    tries := tally.tries + 1
    failures := if outcome.isFailure then tally.failures + 1 else tally.failures }

def recordOutcome (tally : Tally) (outcome : Probe.Outcome) : Recording Tally := do
  let tally := tally.count outcome
  tally.recordOverall outcome.recorded
  let tally <- tally.recordTopic outcome.partition.topic outcome.recorded
  tally.recordPartition outcome.partition outcome.recorded

def availability (tally : Tally) : Option Float :=
  Metric.availability tally.tries tally.failures

def summary (tally : Tally) : Recording Summary := do
  let overall <- Recording.read tally.overall
  return {
    tries := tally.tries
    failures := tally.failures
    availability := tally.availability
    overall }

end Tally

end Metric

end BrokerProbe
