import BrokerProbe.Metric.Key
import BrokerProbe.Metric.Space
/-!
# Publishers

A publisher records on behalf of one role.  Its flags decide which kinds of
metrics reach the registry; what they keep back is measured all the same, in
windows of its own.
-/

namespace BrokerProbe

namespace Metric

structure Flags where
  latency : Bool
  topicLatency : Bool
  partitionLatency : Bool
  availability : Bool
  deriving DecidableEq, Repr

namespace Flags

def all : Flags :=
  { latency := true, topicLatency := true, partitionLatency := true, availability := true }

def none : Flags :=
  { latency := false, topicLatency := false, partitionLatency := false,
    availability := false }

instance : Inhabited Flags := ⟨all⟩

def enabled (flags : Flags) : Kind -> Bool
  | .latency => flags.latency
  | .topicLatency => flags.topicLatency
  | .partitionLatency => flags.partitionLatency
  | .availability => flags.availability

end Flags

structure Publisher where
  role : Role
  flags : Flags
  deriving DecidableEq, Repr, Inhabited

namespace Publisher

/--
The window of a key, with the given capacity from now on.  If the key is not
published, or holds a gauge, the window is detached.
-/
def window (publisher : Publisher) (key : Key) (capacity : Nat) : Recording Handle := do
  if publisher.flags.enabled key.kind then
    match <- Recording.window key.encode capacity with
    | .ok handle =>
        Recording.resize handle capacity
        return handle
    | .error _ => Recording.detach capacity
  else
    Recording.detach capacity

/--
Shows an availability in the role's gauge and gives the gauge's key.  Nothing is
shown if the flags forbid it, if there is no availability, or if the key holds a
window.
-/
def showAvailability (publisher : Publisher) (ratio : Option Float) :
    Recording (Option String) := do
  if publisher.flags.availability then
    match ratio with
    | none => return none
    | some ratio =>
        let key := (Key.availability publisher.role).encode
        match <- Recording.gauge key with
        | .ok _ =>
            Recording.set key ratio
            return some key
        | .error _ => return none
  else
    return none

end Publisher

end Metric

end BrokerProbe
