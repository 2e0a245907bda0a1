/-!
# Topologies

A topology lists the topics of a cluster, and each topic lists its partitions.
Positions in these lists carry meaning: instances that see the same lists
divide the topics among themselves by position alone.
-/

namespace BrokerProbe

structure Partition where
  topic : String
  number : Int
  deriving DecidableEq, Repr, Inhabited

structure Topic where
  name : String
  numbers : List Int
  deriving DecidableEq, Repr, Inhabited

/-- The topics of a cluster in listing order; names may repeat. -/
abbrev Topology := List Topic

namespace Partition

def label (partition : Partition) : String :=
  partition.topic ++ "-" ++ toString partition.number

def precedes (first second : Partition) : Bool :=
  first.topic < second.topic ||
    (first.topic == second.topic && first.number <= second.number)

end Partition

namespace Topic

/-- A topic with the partitions from zero below a count; none if the count is negative. -/
def ofCount (name : String) (count : Int) : Topic :=
  { name, numbers := (List.range count.toNat).map Int.ofNat }

def partitionCount (topic : Topic) : Nat :=
  topic.numbers.length

def partitions (topic : Topic) : List Partition :=
  topic.numbers.map fun number => { topic := topic.name, number }

@[simp] theorem length_partitions (topic : Topic) :
    topic.partitions.length = topic.partitionCount := by
  simp [partitions, partitionCount]

end Topic

namespace Topology

def topicCount (topology : Topology) : Nat :=
  topology.length

def partitionCount : Topology -> Nat
  | [] => 0
  | topic :: rest => topic.partitionCount + partitionCount rest

def partitions (topology : Topology) : List Partition :=
  topology.flatMap Topic.partitions

def indexOf? (topology : Topology) (name : String) : Option Nat :=
  topology.findIdx? fun topic => topic.name == name

@[simp] theorem length_partitions (topology : Topology) :
    topology.partitions.length = topology.partitionCount := by
  induction topology with
  | nil => rfl
  | cons topic rest ih =>
      unfold partitions at ih
      rw [partitions, List.flatMap_cons, List.length_append, ih, Topic.length_partitions]
      rfl

end Topology

end BrokerProbe
