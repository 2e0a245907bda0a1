import BrokerProbe.Metric.Publisher
/-!
# Switches

The switches of an installation say which metrics each role publishes and name
the environment it belongs to.  They are written as a JSON object.
-/

namespace BrokerProbe

namespace Settings

inductive Switch where
  | consumerLatency
  | consumerTopicLatency
  | consumerPartitionLatency
  | consumerAvailability
  | metadataLatency
  | metadataAvailability
  deriving DecidableEq, Repr

inductive Member where
  | switch (switch : Switch)
  | environment
  deriving DecidableEq, Repr

namespace Switch

def name : Switch -> String
  | consumerLatency => "sendConsumerLatency"
  | consumerTopicLatency => "sendConsumerTopicLatency"
  | consumerPartitionLatency => "sendConsumerPartitionLatency"
  | consumerAvailability => "sendConsumerAvailability"
  | metadataLatency => "sendMetadataLatency"
  | metadataAvailability => "sendMetadataAvailability"

def all : List Switch :=
  [consumerLatency, consumerTopicLatency, consumerPartitionLatency, consumerAvailability,
    metadataLatency, metadataAvailability]

end Switch

namespace Member

def name : Member -> String
  | .switch each => each.name
  | .environment => "environmentName"

def all : List Member :=
  Switch.all.map switch ++ [environment]

def ofName? (name : String) : Option Member :=
  all.find? fun member => member.name == name

end Member

structure Switches where
  consumerLatency : Bool
  consumerTopicLatency : Bool
  consumerPartitionLatency : Bool
  consumerAvailability : Bool
  metadataLatency : Bool
  metadataAvailability : Bool
  environment : Option String
  deriving DecidableEq, Repr

namespace Switches

def default : Switches :=
  { consumerLatency := true
    consumerTopicLatency := true
    consumerPartitionLatency := true
    consumerAvailability := true
    metadataLatency := true
    metadataAvailability := true
    environment := none }

instance : Inhabited Switches := ⟨default⟩

def get (switches : Switches) : Switch -> Bool
  | .consumerLatency => switches.consumerLatency
  | .consumerTopicLatency => switches.consumerTopicLatency
  | .consumerPartitionLatency => switches.consumerPartitionLatency
  | .consumerAvailability => switches.consumerAvailability
  | .metadataLatency => switches.metadataLatency
  | .metadataAvailability => switches.metadataAvailability

def set (switches : Switches) (switch : Switch) (value : Bool) : Switches :=
  match switch with
  | .consumerLatency => { switches with consumerLatency := value }
  | .consumerTopicLatency => { switches with consumerTopicLatency := value }
  | .consumerPartitionLatency => { switches with consumerPartitionLatency := value }
  | .consumerAvailability => { switches with consumerAvailability := value }
  | .metadataLatency => { switches with metadataLatency := value }
  | .metadataAvailability => { switches with metadataAvailability := value }

theorem get_set_self (switches : Switches) (switch : Switch) (value : Bool) :
    (switches.set switch value).get switch = value := by
  cases switch <;> rfl

theorem get_set_of_ne
    (switches : Switches) {switch other : Switch} (value : Bool) (h : other ≠ switch) :
    (switches.set switch value).get other = switches.get other := by
  cases switch <;> cases other <;> simp_all [get, set]

/-- What the publisher of a role may publish; nobody publishes for a producer. -/
def flags (switches : Switches) : Role -> Metric.Flags
  | .consumer =>
      { latency := switches.consumerLatency
        topicLatency := switches.consumerTopicLatency
        partitionLatency := switches.consumerPartitionLatency
        availability := switches.consumerAvailability }
  | .metadata =>
      { latency := switches.metadataLatency
        topicLatency := false
        partitionLatency := false
        availability := switches.metadataAvailability }
  | .producer => .none

/-!
# Writing
-/

def renderBool (value : Bool) : List Char :=
  if value then "true".toList else "false".toList

def renderText : Option String -> List Char
  | none => "null".toList
  | some text => Text.quoteChars text.toList

def renderValue (switches : Switches) : Member -> List Char
  | .switch each => renderBool (switches.get each)
  | .environment => renderText switches.environment

def renderMember (switches : Switches) (member : Member) : List Char :=
  Text.quoteChars member.name.toList ++ ':' :: switches.renderValue member

def renderChars (switches : Switches) : List Char :=
  '{' :: List.intercalate [','] (Member.all.map switches.renderMember) ++ ['}']

def render (switches : Switches) : String :=
  String.ofList switches.renderChars

end Switches

end Settings

end BrokerProbe
