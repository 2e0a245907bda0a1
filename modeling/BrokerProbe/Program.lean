import BrokerProbe.CommandLine.Parse
import BrokerProbe.Fleet
/-!
# The program

What a call of the program comes to: its exit code, what it prints, and what it
logs.  The connection to the brokers is a parameter.
-/

namespace BrokerProbe

namespace Program

structure Connection where
  clients : Clients Metric.Logbook
  environment : Settings -> Environment Metric.Logbook

structure Report where
  exitCode : Nat
  output : String
  /-- What goes to standard error after the log. -/
  complaint : String
  /-- What was logged, as far as the severity that was asked for shows it. -/
  log : List Event

def versionText : String := "vigil 0.1.0\n"

def parameterHelp (parameter : CommandLine.Parameter) : String :=
  "  " ++ parameter.flag ++ " <VALUE>\n"

def toggleHelp (toggle : CommandLine.Toggle) : String :=
  "  " ++ toggle.flag ++ "\n"

def helpText : String :=
  "Barrier-synchronized availability prober for Kafka clusters\n\nUsage: vigil [OPTIONS]\n\n" ++
    "Options:\n" ++ String.join (CommandLine.Parameter.all.map parameterHelp) ++
    String.join (CommandLine.Toggle.all.map toggleHelp)

def refusalText : CommandLine.Refusal -> String
  | .help => helpText
  | .version => versionText
  | .unknown token => "error: unexpected argument '" ++ token ++ "' found\n"
  | .missingValue option => "error: a value is required for '" ++ option ++ "'\n"
  | .badValue option => "error: invalid value for '" ++ option ++ "'\n"
  | .repeated option =>
      "error: the argument '" ++ option ++ "' cannot be used multiple times\n"
  | .needlessValue option => "error: unexpected value for '" ++ option ++ "'\n"

def refuse (refusal : CommandLine.Refusal) : Report :=
  let text := refusalText refusal
  if refusal.exitCode = 0 then { exitCode := 0, output := text, complaint := "", log := [] }
  else { exitCode := refusal.exitCode, output := "", complaint := text, log := [] }

def fail (message : String) (log : List Event) : Report :=
  { exitCode := 1, output := "", complaint := "Error: " ++ message ++ "\n", log }

def startEvent (settings : Settings) : Event :=
  .starting settings.cluster settings.servers settings.address settings.roster.size

def finishEvent (summary : Worker.Summary) : Event :=
  .workerFinished summary.role summary.rounds summary.failedRounds summary.finalPhase

def summaries (results : List (Except FleetError Worker.Summary)) : List Worker.Summary :=
  results.filterMap Except.toOption

def runFleet (connection : Connection) (settings : Settings) : Nat × String × List Event :=
  let environment := connection.environment settings
  let logbook := (Metric.Logbook.ofCluster settings.label).write (startEvent settings)
  let launch := Fleet.start settings connection.clients (.ofWorld logbook)
  match launch.failure with
  | some error => (1, error.message, launch.crew.floor.world.events.toList)
  | none =>
      let started := { launch.crew with
        floor := launch.crew.floor.tell environment
          (.workersStarted launch.crew.floor.barrier.census.registered) }
      let ended := Fleet.run environment settings started
      let results := Fleet.results ended
      let finished := summaries results
      let events := ended.floor.world.events.toList ++ finished.map finishEvent
      let failed := results.length - finished.length
      if failed = 0 then (0, "", events ++ [.stopped])
      else (1, toString failed ++ " worker(s) failed", events)

def run (connection : Connection) (files : Settings.Files) (arguments : List String) :
    Report :=
  match CommandLine.parse arguments with
  | .error refusal => refuse refusal
  | .ok given =>
      match given.settings files with
      | .error error => fail error.message []
      | .ok settings =>
          let (exitCode, message, events) := runFleet connection settings
          let log := events.filter fun event => given.severity.shows event.severity
          if exitCode = 0 then { exitCode, output := "", complaint := "", log }
          else fail message log

end Program

end BrokerProbe
