import BrokerProbe.Round.Survey
import BrokerProbe.Round.Sweep
import BrokerProbe.Settings.Basic
import BrokerProbe.Worker.Crew
/-!
# Fleets

The workers of one instance: one for each role.  All of them take their seats at
the barrier before any of them runs.  If one cannot be set up, those before it
give their seats back and nothing has happened.
-/

namespace BrokerProbe

inductive FleetError where
  | client (cause : ClientError)
  | barrier (error : BarrierError)
  | spawn (reason : String)
  | unsupported (role : Role)
  | panicked (role : Role)
  deriving DecidableEq, Repr

namespace FleetError

def message : FleetError -> String
  | client cause => "client setup failed: " ++ cause.message
  | barrier error => error.message
  | spawn reason => "failed to spawn worker thread: " ++ reason
  | unsupported role => "role " ++ role.label ++ " is not supported"
  | panicked role => role.label ++ " worker panicked"

def sources : FleetError -> List String
  | client cause => cause.chain
  | barrier _ => []
  | spawn reason => [reason]
  | unsupported _ => []
  | panicked _ => []

def code? : FleetError -> Option Int
  | barrier error => some error.code
  | _ => none

end FleetError

structure Clients (World : Type) where
  topology : World -> Except ClientError Unit × World
  reader : World -> Except ClientError Unit × World
  directory : Roster -> Round.Directory

/-- A crew that was started, or what is left of one that was not. -/
structure Launch (World : Type) where
  failure : Option FleetError
  crew : Crew World

namespace Fleet

variable {World : Type}

def publisher (settings : Settings) (role : Role) : Metric.Publisher :=
  { role, flags := settings.switches.flags role }

def connect (clients : Clients World) (role : Role) (world : World) :
    Except FleetError Unit × World :=
  match role with
  | .producer => (.error (.unsupported role), world)
  | .metadata =>
      let made := clients.topology world
      (made.1.mapError .client, made.2)
  | .consumer =>
      let made := clients.topology world
      match made.1 with
      | .error cause => (.error (.client cause), made.2)
      | .ok _ =>
          let reader := clients.reader made.2
          (reader.1.mapError .client, reader.2)

def round (settings : Settings) (clients : Clients World) (role : Role) :
    Round.Asking Round.Ending :=
  match role with
  | .metadata => Round.Survey.round { publisher := publisher settings role }
  | _ =>
      Round.Sweep.round {
        address := settings.address
        directory := clients.directory settings.roster
        publisher := publisher settings role }

def recruit (settings : Settings) (clients : Clients World) (role : Role) (crew : Crew World) :
    Except FleetError Unit × Crew World :=
  let connected := connect clients role crew.floor.world
  let crew := { crew with floor := { crew.floor with world := connected.2 } }
  match connected.1 with
  | .error error => (.error error, crew)
  | .ok _ =>
      let joined := crew.join role settings.maxRounds (fun _ => round settings clients role) none
      (joined.1.mapError .barrier, joined.2)

def recruitAll (settings : Settings) (clients : Clients World) :
    List Role -> Crew World -> Except FleetError Unit × Crew World
  | [], crew => (.ok (), crew)
  | role :: rest, crew =>
      match recruit settings clients role crew with
      | (.ok _, crew) => recruitAll settings clients rest crew
      | (.error error, crew) => (.error error, crew)

/-- Lets go of workers that have not run: each gives its seat back. -/
def disband (crew : Crew World) : Crew World :=
  let barrier := crew.workers.foldl
    (fun barrier worker => (barrier.leave worker.participant).2) crew.floor.barrier
  { floor := { crew.floor with barrier }, workers := [] }

def start (settings : Settings) (clients : Clients World) (floor : Floor World) :
    Launch World :=
  match recruitAll settings clients settings.roles { floor, workers := [] } with
  | (.ok _, crew) => { failure := none, crew }
  | (.error error, crew) => { failure := some error, crew := disband crew }

/-- The phases after which a fleet with these settings has ended, if it ends by itself. -/
def horizon (settings : Settings) : Nat :=
  settings.maxRounds.getD 0 + 2

def run (environment : Environment World) (settings : Settings) (crew : Crew World) :
    Crew World :=
  crew.run environment (horizon settings)

def play (environment : Environment World) (settings : Settings) (clients : Clients World)
    (stop : Bool) (floor : Floor World) : Launch World :=
  let launch := start settings clients floor
  match launch.failure with
  | some _ => launch
  | none =>
      let crew := if stop then launch.crew.requestStop else launch.crew
      { launch with crew := run environment settings crew }

def result? (worker : Worker) : Option (Except FleetError Worker.Summary) :=
  match worker.verdict? with
  | none => none
  | some (.finished summary) => some (.ok summary)
  | some (.rejected error) => some (.error (.barrier error))
  | some .panicked => some (.error (.panicked worker.role))
  | some .abandoned => none

def results (crew : Crew World) : List (Except FleetError Worker.Summary) :=
  crew.workers.filterMap result?

end Fleet

end BrokerProbe
