import BrokerProbe.Failure
import BrokerProbe.Probe.Latency
/-!
# Probe outcomes

A probe reads one record of one partition.  Its failure is a value that the
round records before it goes on with the next partition.
-/

namespace BrokerProbe

namespace Probe

inductive Outcome where
  | succeeded (partition : Partition) (elapsed : Nat)
  | failed (error : ProbeError)
  deriving DecidableEq, Repr

namespace Outcome

def ofResult
    (partition : Partition) (elapsed : Nat) : Except ClientError Unit -> Outcome
  | .ok _ => succeeded partition elapsed
  | .error cause => failed { partition, elapsed, cause }

def partition : Outcome -> Partition
  | succeeded partition _ => partition
  | failed error => error.partition

def isFailure : Outcome -> Bool
  | succeeded _ _ => false
  | failed _ => true

def error? : Outcome -> Option ProbeError
  | succeeded _ _ => none
  | failed error => some error

def elapsed : Outcome -> Nat
  | succeeded _ elapsed => elapsed
  | failed error => error.elapsed

def recorded (outcome : Outcome) : Nat :=
  Latency.recorded outcome.elapsed outcome.isFailure

@[simp] theorem partition_ofResult
    (partition : Partition) (elapsed : Nat) (result : Except ClientError Unit) :
    (ofResult partition elapsed result).partition = partition := by
  cases result <;> rfl

@[simp] theorem elapsed_ofResult
    (partition : Partition) (elapsed : Nat) (result : Except ClientError Unit) :
    (ofResult partition elapsed result).elapsed = elapsed := by
  cases result <;> rfl

end Outcome

end Probe

end BrokerProbe
