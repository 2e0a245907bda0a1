import BrokerProbe.Role
import BrokerProbe.Text.Quoted
import BrokerProbe.Topology.Basic
/-!
# Metric keys

A key says which role measures what, and of which scope.  Its text is a JSON
object with the name and the scope; instruments are registered under this text.
-/

namespace BrokerProbe

namespace Metric

inductive Kind where
  | latency
  | topicLatency
  | partitionLatency
  | availability
  deriving DecidableEq, Repr, Inhabited

def Kind.suffix : Kind -> String
  | latency => "Latency"
  | topicLatency => "Topic.Latency"
  | partitionLatency => "Partition.Latency"
  | availability => "Availability"

structure Key where
  role : Role
  kind : Kind
  scope : String
  deriving DecidableEq, Repr, Inhabited

namespace Key

/-- The scope of metrics that take in everything a role measures. -/
def everything : String := "all"

def latency (role : Role) : Key :=
  { role, kind := .latency, scope := everything }

def topic (role : Role) (name : String) : Key :=
  { role, kind := .topicLatency, scope := name }

def partition (role : Role) (partition : Partition) : Key :=
  { role, kind := .partitionLatency, scope := partition.label }

def availability (role : Role) : Key :=
  { role, kind := .availability, scope := everything }

def name (key : Key) : String :=
  key.role.title ++ "." ++ key.kind.suffix

def opening : List Char := "\x7b\"name\":".toList

def separator : List Char := ",\"tag\":".toList

def closing : List Char := "\x7d".toList

def encodeChars (key : Key) : List Char :=
  opening ++ Text.quoteChars key.name.toList ++ separator ++
    Text.quoteChars key.scope.toList ++ closing

/-- The text under which the instrument of a key is registered. -/
def encode (key : Key) : String :=
  String.ofList key.encodeChars

def after? (front : List Char) (cs : List Char) : Option (List Char) :=
  if front.isPrefixOf cs then some (cs.drop front.length) else none

def decode? (cs : List Char) : Option (List Char × List Char) := do
  let rest <- after? opening cs
  let (name, rest) <- Text.unquote? rest
  let rest <- after? separator rest
  let (scope, rest) <- Text.unquote? rest
  let rest <- after? closing rest
  if rest.isEmpty then some (name, scope) else none

end Key

end Metric

end BrokerProbe
