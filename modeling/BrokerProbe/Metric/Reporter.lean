import BrokerProbe.Event
import BrokerProbe.Queue
/-!
# Reporters

A reporter is told when a session begins and ends and is handed the registry in
between.  One of them writes every instrument to the log.
-/

namespace BrokerProbe

namespace Metric

inductive ReporterError where
  | start (reason : String)
  | report (reason : String)
  deriving DecidableEq, Repr

def ReporterError.message : ReporterError -> String
  | start reason => "reporter failed to start: " ++ reason
  | report reason => "reporter failed to report: " ++ reason

structure Reporter (State : Type) where
  start : State -> Except ReporterError Unit × State
  report : Registry -> State -> Except ReporterError Unit × State
  stop : State -> State

def Reporter.ofPart {Part State : Type} (reporter : Reporter Part)
    (part : State -> Part) (put : State -> Part -> State) : Reporter State where
  start state :=
    let given := reporter.start (part state)
    (given.1, put state given.2)
  report registry state :=
    let given := reporter.report registry (part state)
    (given.1, put state given.2)
  stop state := put state (reporter.stop (part state))

structure Logbook where
  cluster : String
  active : Nat
  events : Queue Event

namespace Logbook

def ofCluster (cluster : String) : Logbook :=
  { cluster, active := 0, events := .empty }

def write (logbook : Logbook) (event : Event) : Logbook :=
  { logbook with events := logbook.events.push event }

def start (logbook : Logbook) : Logbook :=
  let active := logbook.active + 1
  { logbook with active }.write (.sessionStarted logbook.cluster active)

/-- A stop without a start before it is tolerated. -/
def stop (logbook : Logbook) : Logbook :=
  let active := logbook.active - 1
  { logbook with active }.write (.sessionStopped logbook.cluster active)

def entry (cluster key : String) : Reading -> Event
  | .window statistics => .windowReported cluster key statistics
  | .gauge value => .gaugeReported cluster key value

def report (registry : Registry) (logbook : Logbook) : Logbook :=
  registry.readings.foldl
    (fun logbook reading => logbook.write (entry logbook.cluster reading.1 reading.2)) logbook

def reporter : Reporter Logbook where
  start logbook := (.ok (), logbook.start)
  report registry logbook := (.ok (), logbook.report registry)
  stop := stop

end Logbook

end Metric

end BrokerProbe
