import BrokerProbe.Metric.Publisher
import BrokerProbe.Probe.Latency
import BrokerProbe.Round.Basic
/-!
# Surveys

A survey fetches the cluster's metadata once and records how long that took; a
failed fetch is recorded with the penalty.  Its window holds the latest fetch
only.
-/

namespace BrokerProbe

namespace Round

structure Survey where
  publisher : Metric.Publisher
  deriving DecidableEq, Repr

namespace Survey

def role (survey : Survey) : Role :=
  survey.publisher.role

def capacity : Nat := 1

def topicCount : Except ClientError Topology -> Nat
  | .ok topology => topology.topicCount
  | .error _ => 0

def isFailure : Except ClientError Topology -> Bool
  | .ok _ => false
  | .error _ => true

def record (survey : Survey) (elapsed : Nat) (failed : Bool) (availability : Option Float) :
    Metric.Recording Metric.Statistics := do
  let window <- survey.publisher.window (.latency survey.role) capacity
  Metric.Recording.record window (Latency.recorded elapsed failed)
  let _ <- survey.publisher.showAvailability availability
  Metric.Recording.read window

def round (survey : Survey) : Asking Ending := do
  let fetched <- Asking.fetch
  Asking.close
  let failed := isFailure fetched.value
  let failures := if failed then 1 else 0
  let availability := Metric.availability 1 failures
  let latency <- Asking.recording (survey.record fetched.elapsed failed availability)
  let totalTopics := topicCount fetched.value
  Asking.tell (.surveyFinished survey.role fetched.elapsed failed totalTopics)
  return .completed {
    role := survey.role
    totalTopics
    assignedTopics := 0
    assignedPartitions := 0
    tries := 1
    failures
    availability
    latency }

end Survey

end Round

end BrokerProbe
