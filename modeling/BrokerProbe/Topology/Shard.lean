import BrokerProbe.Failure
import BrokerProbe.Topology.Roster
/-!
# Shards

The part of a topology that one instance measures.  The topic at position `i`
belongs to the instance at position `i` modulo the number of instances, so all
partitions of a topic stay together and no two instances need to talk.
-/

namespace BrokerProbe

def shardOf (index peers : Nat) : Nat :=
  if peers = 0 then 0 else index % peers

structure Shard where
  position : Nat
  shardCount : Nat
  totalTopics : Nat
  topics : Topology
  deriving DecidableEq, Repr

namespace Shard

/-- The position of an address; the only one if nobody is listed. -/
def locate (roster : Roster) (address : String) : Except SetupError Nat :=
  if roster.isEmpty then .ok 0
  else
    match roster.indexOf? address with
    | some position => .ok position
    | none => .error (.notInRoster address roster.size)

def assigned (topology : Topology) (peers position : Nat) : Topology :=
  (topology.zipIdx.filter fun entry => shardOf entry.2 peers == position).map Prod.fst

def plan (topology : Topology) (roster : Roster) (address : String) :
    Except SetupError Shard := do
  let position <- locate roster address
  return {
    position
    shardCount := max roster.size 1
    totalTopics := topology.topicCount
    topics := assigned topology roster.size position }

end Shard

end BrokerProbe
