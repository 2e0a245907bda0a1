import BrokerProbe.Metric.Shelf
import BrokerProbe.Round.Survey
import BrokerProbe.Round.Sweep
import BrokerProbe.Simulated.Cluster
/-!
# Test benches

Rounds of several instances in one simulated cluster, one after the other.
Instances record in registries that are known by name.
-/

namespace BrokerProbe

namespace Simulated

inductive Measurement where
  | sweep (sweep : Round.Sweep)
  | survey (survey : Round.Survey)
  deriving DecidableEq, Repr

namespace Measurement

def round : Measurement -> Round.Asking Round.Ending
  | .sweep each => each.round
  | .survey each => each.round

def role : Measurement -> Role
  | .sweep each => each.role
  | .survey each => each.role

def firstStage? : Measurement -> Option Round.Stage
  | .sweep _ => some .idle
  | .survey _ => none

end Measurement

structure Instance where
  measurement : Measurement
  registry : String
  stage : Option Round.Stage
  deriving DecidableEq, Repr

def Instance.fresh (measurement : Measurement) (registry : String) : Instance :=
  { measurement, registry, stage := measurement.firstStage? }

/-- The cluster, the registries, and how many reads have been accounted for. -/
structure Bench where
  cluster : Cluster
  shelf : Metric.Shelf
  accounted : Nat

structure Account where
  ending : Round.Ending
  before : Option Round.Stage
  after : Option Round.Stage
  transitions : List (Round.Stage × Round.Stage)
  probed : List Partition
  registry : Metric.Registry

namespace Bench

def ofCluster (cluster : Cluster) : Bench :=
  { cluster, shelf := .empty, accounted := 0 }

def register (bench : Bench) (name key : String) (instrument : Metric.Instrument) :
    Except Metric.RegistryError Bench := do
  let registry <- (bench.shelf.get name).register key instrument
  return { bench with shelf := bench.shelf.put name registry }

def transition? : Event -> Option (Round.Stage × Round.Stage)
  | .stageEntered _ source target => some (source, target)
  | _ => none

def stageAfter (before : Option Round.Stage)
    (transitions : List (Round.Stage × Round.Stage)) : Option Round.Stage :=
  before.map fun stage => (transitions.getLast?.map Prod.snd).getD stage

def play (bench : Bench) (inst : Instance) : Account × Instance × Bench :=
  let scene : Round.Scene Cluster :=
    { space := .ofRegistry (bench.shelf.get inst.registry)
      stopping := false
      world := { bench.cluster with events := .empty } }
  let played := scene.play Cluster.surroundings inst.measurement.round
  let cluster := played.2.world
  let transitions := cluster.events.toList.filterMap transition?
  let after := stageAfter inst.stage transitions
  let registry := played.2.space.registry
  ({ ending := played.1
     before := inst.stage
     after
     transitions
     probed := cluster.reads.toList.drop bench.accounted
     registry },
    { inst with stage := after },
    { cluster
      shelf := bench.shelf.put inst.registry registry
      accounted := cluster.reads.size })

def probe (bench : Bench) (partition : Partition) : Probe.Outcome × Bench :=
  let given := bench.cluster.read partition
  (.ofResult partition bench.cluster.faults.latency given.1, { bench with cluster := given.2 })

end Bench

end Simulated

end BrokerProbe
