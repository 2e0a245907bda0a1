/-!
# Roles

What a worker measures: reading records, writing records, or fetching the
cluster's metadata.  Writing is a known role that no worker fills.
-/

namespace BrokerProbe

inductive Role where
  | consumer
  | producer
  | metadata
  deriving DecidableEq, Repr, Inhabited

namespace Role

def label : Role -> String
  | consumer => "consumer"
  | producer => "producer"
  | metadata => "metadata"

def title : Role -> String
  | consumer => "Consumer"
  | producer => "Producer"
  | metadata => "Metadata"

def all : List Role :=
  [consumer, producer, metadata]

structure Unknown where
  text : String
  deriving DecidableEq, Repr

def Unknown.message (error : Unknown) : String :=
  "unknown role '" ++ error.text ++ "', expected one of: consumer, producer, metadata"

/-- Reads a role's label; the case of ASCII letters does not matter. -/
def parse (text : String) : Except Unknown Role :=
  match all.find? fun role => role.label.toList == text.toList.map Char.toLower with
  | some role => .ok role
  | none => .error { text }

theorem parse_label (role : Role) : parse role.label = .ok role := by
  cases role <;> rfl

end Role

end BrokerProbe
