/-!
# Latencies

Latencies are whole milliseconds below two to the sixty-fourth.  A failed
probe is recorded with a penalty on top of the time it took, so that a failure
always counts as slower than a success.
-/

namespace BrokerProbe

namespace Latency

def ceiling : Nat := 18446744073709551615

def penalty : Nat := 60000

def recorded (elapsed : Nat) (failed : Bool) : Nat :=
  if failed then min (elapsed + penalty) ceiling else elapsed

theorem recorded_success (elapsed : Nat) : recorded elapsed false = elapsed := rfl

theorem recorded_le_ceiling
    {elapsed : Nat} (h : elapsed <= ceiling) (failed : Bool) :
    recorded elapsed failed <= ceiling := by
  unfold recorded
  split
  · exact Nat.min_le_right _ _
  · exact h

end Latency

end BrokerProbe
