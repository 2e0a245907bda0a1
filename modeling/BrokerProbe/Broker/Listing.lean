import BrokerProbe.Topology.Basic
/-!
# Broker listings

Brokers list topics and partitions in no particular order.  A topology is made
of a listing by putting both in order, so that all instances see the same one.
-/

namespace BrokerProbe

namespace Broker

/-- The start of the names of topics that brokers keep for themselves. -/
def internalMark : List Char := ['_', '_']

def isInternal (topic : Topic) : Bool :=
  internalMark.isPrefixOf topic.name.toList

def inOrder (topic : Topic) : Topic :=
  { topic with numbers := topic.numbers.mergeSort fun first second => first <= second }

def byName (first second : Topic) : Bool :=
  first.name <= second.name

def topology (includeInternal : Bool) (listing : List Topic) : Topology :=
  ((listing.filter fun topic => includeInternal || !isInternal topic).map inOrder).mergeSort
    byName

end Broker

end BrokerProbe
