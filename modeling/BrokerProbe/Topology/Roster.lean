import BrokerProbe.Repetition
/-!
# Rosters

The ordered list of the addresses of all instances of a fleet.  An instance is
known by the position of its address.
-/

namespace BrokerProbe

/-- The addresses of the instances, in the order that all of them share. -/
structure Roster where
  addresses : List String
  deriving DecidableEq, Repr, Inhabited

namespace Roster

def size (roster : Roster) : Nat :=
  roster.addresses.length

def isEmpty (roster : Roster) : Bool :=
  roster.addresses.isEmpty

def indexOf? (roster : Roster) (address : String) : Option Nat :=
  roster.addresses.findIdx? fun other => other == address

def contains (roster : Roster) (address : String) : Bool :=
  (roster.indexOf? address).isSome

def firstDuplicate? (roster : Roster) : Option String :=
  firstRepeat? roster.addresses

end Roster

end BrokerProbe
