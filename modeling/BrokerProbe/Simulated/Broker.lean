import BrokerProbe.Broker.Basic
/-!
# Simulated brokers

A broker in memory: topics, and how many records each partition holds.
-/

namespace BrokerProbe

namespace Simulated

def unknownPartition : String :=
  "Meta data fetch error: UnknownPartition (Local: Unknown partition)"

def broker (topics : List Topic) (records : Partition -> Nat) : Broker where
  listing := .ok topics
  offsets partition :=
    if topics.any fun topic => topic.partitions.contains partition then
      .ok (0, records partition)
    else .error unknownPartition
  poll partition offset :=
    if 0 <= offset && offset < records partition then .record else .nothing

end Simulated

end BrokerProbe
