import BrokerProbe.Failure
import BrokerProbe.Metric.Registry
import BrokerProbe.Role
import BrokerProbe.Round.Stage
import BrokerProbe.Severity
/-!
# Events

What a running instance tells its log.
-/

namespace BrokerProbe

inductive Event where
  | starting (cluster servers address : String) (peers : Nat)
  | workersStarted (registered : Nat)
  | sessionStarted (cluster : String) (active : Nat)
  | sessionStopped (cluster : String) (active : Nat)
  | windowReported (cluster metric : String) (statistics : Metric.Statistics)
  | gaugeReported (cluster metric : String) (value : Float)
  | stageEntered (role : Role) (source target : Round.Stage)
  | roundPlanned (role : Role) (totalTopics assignedTopics assignedPartitions : Nat)
  | surveyFinished (role : Role) (elapsed : Nat) (failed : Bool) (totalTopics : Nat)
  | roundCompleted (role : Role) (tries failures : Nat)
  | roundRefused (role : Role) (error : SetupError)
  | workerFinished (role : Role) (rounds failedRounds finalPhase : Nat)
  | stopped

namespace Event

inductive Field where
  | text (text : String)
  | number (number : Nat)
  | real (real : Float)
  | flag (flag : Bool)

def severity : Event -> Severity
  | sessionStarted _ _ => .debug
  | sessionStopped _ _ => .debug
  | stageEntered _ _ _ => .debug
  | roundRefused _ _ => .error
  | _ => .info

def message : Event -> String
  | starting _ _ _ _ => "Starting Vigil prober"
  | workersStarted _ => "started workers"
  | sessionStarted _ _ => "metrics session started"
  | sessionStopped _ _ => "metrics session stopped"
  | windowReported _ _ _ => "histogram"
  | gaugeReported _ _ _ => "gauge"
  | stageEntered _ _ _ => "round transition"
  | roundPlanned _ _ _ _ => "planned round"
  | surveyFinished _ _ _ _ => "finished metadata round"
  | roundCompleted _ _ _ => "round complete"
  | roundRefused _ _ => "round setup failed"
  | workerFinished _ _ _ _ => "worker finished"
  | stopped => "Vigil prober stopped"

def statisticsFields (statistics : Metric.Statistics) : List (String × Field) :=
  [("count", .number statistics.count), ("min", .number statistics.min),
    ("max", .number statistics.max), ("mean", .real statistics.mean),
    ("p50", .number statistics.p50), ("p75", .number statistics.p75),
    ("p95", .number statistics.p95), ("p99", .number statistics.p99)]

def fields : Event -> List (String × Field)
  | starting cluster servers address peers =>
      [("cluster_name", .text cluster), ("bootstrap_servers", .text servers),
        ("service_address", .text address), ("peer_count", .number peers)]
  | workersStarted registered => [("registered", .number registered)]
  | sessionStarted cluster active => [("cluster", .text cluster), ("active", .number active)]
  | sessionStopped cluster active => [("cluster", .text cluster), ("active", .number active)]
  | windowReported cluster metric statistics =>
      [("cluster", .text cluster), ("metric", .text metric)] ++ statisticsFields statistics
  | gaugeReported cluster metric value =>
      [("cluster", .text cluster), ("metric", .text metric), ("value", .real value)]
  | stageEntered role source target =>
      [("role", .text role.label), ("from", .text source.label), ("to", .text target.label)]
  | roundPlanned role totalTopics assignedTopics assignedPartitions =>
      [("role", .text role.label), ("total_topics", .number totalTopics),
        ("assigned_topics", .number assignedTopics),
        ("assigned_partitions", .number assignedPartitions)]
  | surveyFinished role elapsed failed totalTopics =>
      [("role", .text role.label), ("elapsed_ms", .number elapsed), ("failed", .flag failed),
        ("total_topics", .number totalTopics)]
  | roundCompleted role tries failures =>
      [("role", .text role.label), ("try_count", .number tries),
        ("fail_count", .number failures)]
  | roundRefused role error =>
      [("role", .text role.label), ("error", .text error.message)]
  | workerFinished role rounds failedRounds finalPhase =>
      [("role", .text role.label), ("rounds", .number rounds),
        ("failed_rounds", .number failedRounds), ("final_phase", .number finalPhase)]
  | stopped => []

def Field.render : Field -> String
  | .text value => value
  | .number value => toString value
  | .real value => toString value
  | .flag value => toString value

def line (event : Event) : String :=
  event.severity.label ++ " " ++ event.message ++
    String.join (event.fields.map fun (name, field) => " " ++ name ++ "=" ++ field.render)

end Event

end BrokerProbe
