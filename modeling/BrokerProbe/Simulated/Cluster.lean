import BrokerProbe.Queue
import BrokerProbe.Round.Scene
/-!
# Simulated clusters

A cluster in memory whose topology, directory and reads can be made to fail.  It
keeps count of what is asked of it.
-/

namespace BrokerProbe

namespace Simulated

structure Faults where
  failing : List Partition
  failAll : Bool
  latency : Nat
  deriving DecidableEq, Repr

def Faults.none : Faults :=
  { failing := [], failAll := false, latency := 0 }

structure Cluster where
  topology : Topology
  topologyDown : Bool
  roster : Roster
  directoryDown : Bool
  faults : Faults
  fetches : Nat
  closes : Nat
  reads : Queue Partition
  readFailures : Nat
  events : Queue Event

namespace Cluster

def ofTopology (topology : Topology) : Cluster :=
  { topology
    topologyDown := false
    roster := { addresses := [] }
    directoryDown := false
    faults := .none
    fetches := 0
    closes := 0
    reads := .empty
    readFailures := 0
    events := .empty }

def fetch (cluster : Cluster) : Except ClientError Topology × Cluster :=
  let asked := { cluster with fetches := cluster.fetches + 1 }
  if cluster.topologyDown then (.error (.unavailable "simulated topology outage"), asked)
  else (.ok cluster.topology, asked)

def close (cluster : Cluster) : Cluster :=
  { cluster with closes := cluster.closes + 1 }

def peers (cluster : Cluster) : Except ClientError Roster :=
  if cluster.directoryDown then .error (.unavailable "simulated discovery outage")
  else .ok cluster.roster

def read (cluster : Cluster) (partition : Partition) :
    Except ClientError Unit × Cluster :=
  let asked := { cluster with reads := cluster.reads.push partition }
  if cluster.faults.failAll || cluster.faults.failing.contains partition then
    (.error (.unavailable ("simulated read failure on " ++ partition.label)),
      { asked with readFailures := cluster.readFailures + 1 })
  else (.ok (), asked)

def tell (cluster : Cluster) (event : Event) : Cluster :=
  { cluster with events := cluster.events.push event }

/-- Rounds in a simulated cluster: a read takes the injected time, a fetch none. -/
def surroundings : Round.Surroundings Cluster where
  fetch cluster :=
    let given := cluster.fetch
    ({ elapsed := 0, value := given.1 }, given.2)
  close := close
  peers cluster := (cluster.peers, cluster)
  read partition cluster :=
    let given := cluster.read partition
    (.answered cluster.faults.latency given.1, given.2)
  tell event cluster := cluster.tell event

end Cluster

end Simulated

end BrokerProbe
