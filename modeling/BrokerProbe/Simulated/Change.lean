import BrokerProbe.Simulated.Bench
import BrokerProbe.Simulated.Site
/-!
# Changes from outside

What may be done to a simulated cluster and to the registries between two
rounds, and to the workers' floor between two phases.
-/

namespace BrokerProbe

namespace Simulated

inductive Change where
  | topology (topology : Topology)
  | topologyDown (down : Bool)
  | roster (roster : Roster)
  | directoryDown (down : Bool)
  | failing (partition : Partition)
  | faults (faults : Faults)
  deriving DecidableEq, Repr

def Cluster.apply (cluster : Cluster) : Change -> Cluster
  | .topology topology => { cluster with topology }
  | .topologyDown topologyDown => { cluster with topologyDown }
  | .roster roster => { cluster with roster }
  | .directoryDown directoryDown => { cluster with directoryDown }
  | .failing partition =>
      { cluster with
        faults := { cluster.faults with failing := partition :: cluster.faults.failing } }
  | .faults faults => { cluster with faults }

inductive Intervention where
  | change (change : Change)
  | register (registry key : String) (instrument : Metric.Instrument)
  | stopping (value : Bool)
  | failStart (value : Bool)
  | failReport (value : Bool)

/-- Intervenes on a bench, which has no workers to stop and no journal. -/
def Bench.intervene (bench : Bench) : Intervention -> Except Metric.RegistryError Bench
  | .change change => .ok { bench with cluster := bench.cluster.apply change }
  | .register registry key instrument => bench.register registry key instrument
  | .stopping _ => .ok bench
  | .failStart _ => .ok bench
  | .failReport _ => .ok bench

namespace Site

def registryName : String := "main"

def aside? (registry : String) : Option String :=
  if registry = registryName then none else some registry

def onJournal (change : Journal -> Journal) (floor : Floor Site) : Floor Site :=
  { floor with world := { floor.world with journal := change floor.world.journal } }

def register (registry key : String) (instrument : Metric.Instrument) (floor : Floor Site) :
    Except Metric.RegistryError (Floor Site) := do
  let aside := aside? registry
  return floor.putRegistry aside (<- (floor.registryOf aside).register key instrument)

def intervene (floor : Floor Site) : Intervention -> Except Metric.RegistryError (Floor Site)
  | .change change =>
      .ok { floor with world := { floor.world with cluster := floor.world.cluster.apply change } }
  | .register registry key instrument => register registry key instrument floor
  | .stopping stopping => .ok { floor with stopping }
  | .failStart value =>
      .ok (onJournal (fun journal => { journal with failStart := value }) floor)
  | .failReport value =>
      .ok (onJournal (fun journal => { journal with failReport := value }) floor)

end Site

end Simulated

end BrokerProbe
