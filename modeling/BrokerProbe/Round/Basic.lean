import BrokerProbe.Dialogue
import BrokerProbe.Event
import BrokerProbe.Metric.Space
import BrokerProbe.Topology.Roster
/-!
# Rounds

A round measures once.  It is a dialogue: it asks for the topology, for the
other instances and for reads of partitions, records what it finds, and tells
the log about it.  How it ended is its value.
-/

namespace BrokerProbe

namespace Round

inductive Directory where
  | service
  | fixed (roster : Roster)
  deriving DecidableEq, Repr

structure Timed (Value : Type) where
  elapsed : Nat
  value : Value
  deriving Repr

/-- How a read ended: with a result after some time, or in the middle. -/
inductive Read where
  | answered (elapsed : Nat) (result : Except ClientError Unit)
  | crashed

inductive Question where
  | metric (question : Metric.Question)
  | fetch
  | close
  | peers (directory : Directory)
  | read (partition : Partition)
  | tell (event : Event)
  | stopAll

abbrev Answer : Question -> Type
  | .metric question => Metric.Answer question
  | .fetch => Timed (Except ClientError Topology)
  | .close => Unit
  | .peers _ => Except ClientError Roster
  | .read _ => Read
  | .tell _ => Unit
  | .stopAll => Unit

structure Outcome where
  role : Role
  totalTopics : Nat
  assignedTopics : Nat
  assignedPartitions : Nat
  tries : Nat
  failures : Nat
  availability : Option Float
  latency : Metric.Statistics

inductive Ending where
  | completed (outcome : Outcome)
  | refused (error : SetupError)
  | crashed

abbrev Asking := Dialogue Question Answer

namespace Asking

variable {Value : Type}

def fetch : Asking (Timed (Except ClientError Topology)) :=
  Dialogue.request Question.fetch

def close : Asking Unit :=
  Dialogue.request Question.close

def peers (directory : Directory) : Asking (Except ClientError Roster) :=
  Dialogue.request (Question.peers directory)

def read (partition : Partition) : Asking Read :=
  Dialogue.request (Question.read partition)

def tell (event : Event) : Asking Unit :=
  Dialogue.request (Question.tell event)

def stopAll : Asking Unit :=
  Dialogue.request Question.stopAll

def recording (recording : Metric.Recording Value) : Asking Value :=
  recording.widen Question.metric fun _ answer => answer

end Asking

end Round

end BrokerProbe
