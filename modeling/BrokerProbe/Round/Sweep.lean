import BrokerProbe.Metric.Tally
import BrokerProbe.Round.Basic
import BrokerProbe.Topology.Shard
/-!
# Sweeps

A sweep reads every partition of the instance's shard once.  It fetches the
topology, looks up the instances and plans; if that fails, the role's
availability is shown as zero.  Otherwise it reads and records partition by
partition, whatever fails on the way, and shows the share of good reads.  The
topology is released on every way out.
-/

namespace BrokerProbe

namespace Round

structure Sweep where
  address : String
  directory : Directory
  publisher : Metric.Publisher
  deriving DecidableEq, Repr

namespace Sweep

def role (sweep : Sweep) : Role :=
  sweep.publisher.role

def enter (sweep : Sweep) (source target : Stage) : Asking Unit :=
  Asking.tell (.stageEntered sweep.role source target)

def plan (sweep : Sweep) : Asking (Except SetupError Shard) := do
  match (<- Asking.fetch).value with
  | .error cause => return .error (.topology cause)
  | .ok topology =>
      match <- Asking.peers sweep.directory with
      | .error cause => return .error (.topology cause)
      | .ok roster => return Shard.plan topology roster sweep.address

/-- Reads a partition and records the outcome; nothing comes back from a crash. -/
def probe (tally : Metric.Tally) (partition : Partition) : Asking (Option Metric.Tally) := do
  match <- Asking.read partition with
  | .crashed => return none
  | .answered elapsed result =>
      let outcome := Probe.Outcome.ofResult partition elapsed result
      return some (<- Asking.recording (tally.recordOutcome outcome))

def probeAll (tally : Metric.Tally) : List Partition -> Asking (Option Metric.Tally)
  | [] => return some tally
  | partition :: rest => do
      match <- probe tally partition with
      | none => return none
      | some tally => probeAll tally rest

def outcome (sweep : Sweep) (shard : Shard) (summary : Metric.Summary) : Outcome :=
  { role := sweep.role
    totalTopics := shard.totalTopics
    assignedTopics := shard.topics.topicCount
    assignedPartitions := shard.topics.partitionCount
    tries := summary.tries
    failures := summary.failures
    availability := summary.availability
    latency := summary.overall }

def finish (sweep : Sweep) (shard : Shard) (tally : Metric.Tally) : Asking Ending := do
  sweep.enter .probing .reporting
  let summary <- Asking.recording tally.summary
  let _ <- Asking.recording (sweep.publisher.showAvailability summary.availability)
  Asking.close
  sweep.enter .reporting .done
  return .completed (sweep.outcome shard summary)

def measure (sweep : Sweep) (shard : Shard) : Asking Ending := do
  Asking.tell (.roundPlanned sweep.role shard.totalTopics shard.topics.topicCount
    shard.topics.partitionCount)
  sweep.enter .planning .probing
  let tally <- Asking.recording (Metric.Tally.start sweep.publisher shard.topics)
  match <- probeAll tally shard.topics.partitions with
  | none =>
      Asking.close
      return .crashed
  | some tally => sweep.finish shard tally

/-- Gives up before the first read: the role counts as unavailable. -/
def refuse (sweep : Sweep) (error : SetupError) : Asking Ending := do
  Asking.close
  let _ <- Asking.recording (sweep.publisher.showAvailability (some 0))
  return .refused error

def round (sweep : Sweep) : Asking Ending := do
  sweep.enter .idle .planning
  match <- sweep.plan with
  | .error error => sweep.refuse error
  | .ok shard => sweep.measure shard

end Sweep

end Round

end BrokerProbe
