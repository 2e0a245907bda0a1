import BrokerProbe.Topology.Basic
/-!
# Failures

What can go wrong between an instance and its cluster.  A failed read lowers
the availability of a round that goes on; a failed set-up ends the round before
the first read.
-/

namespace BrokerProbe

inductive ClientError where
  | broker (cause : String)
  | timeout (operation : String) (waited : Nat)
  | unavailable (reason : String)
  deriving DecidableEq, Repr

structure ProbeError where
  partition : Partition
  elapsed : Nat
  cause : ClientError
  deriving DecidableEq, Repr

inductive SetupError where
  | topology (cause : ClientError)
  | notInRoster (address : String) (size : Nat)
  deriving DecidableEq, Repr

namespace ClientError

def message : ClientError -> String
  | broker cause => "broker client error: " ++ cause
  | timeout operation waited =>
      "timed out after " ++ toString waited ++ "ms waiting for " ++ operation
  | unavailable reason => "unavailable: " ++ reason

def sources : ClientError -> List String
  | broker cause => [cause]
  | timeout _ _ => []
  | unavailable _ => []

def chain (error : ClientError) : List String :=
  error.message :: error.sources

end ClientError

namespace ProbeError

def message (error : ProbeError) : String :=
  "probe of " ++ error.partition.label ++ " failed after " ++ toString error.elapsed ++
    "ms: " ++ error.cause.message

def sources (error : ProbeError) : List String :=
  error.cause.chain

end ProbeError

namespace SetupError

def message : SetupError -> String
  | topology cause => "failed to fetch topology: " ++ cause.message
  | notInRoster address size =>
      "service address '" ++ address ++ "' is not in the peer list of " ++
        toString size ++ " peers"

def sources : SetupError -> List String
  | topology cause => cause.chain
  | notInRoster _ _ => []

def code : SetupError -> Int
  | topology _ => -1
  | notInRoster _ _ => -2

end SetupError

end BrokerProbe
