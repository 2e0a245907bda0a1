import BrokerProbe.Simulated.Cluster
import BrokerProbe.Simulated.Journal
import BrokerProbe.Worker.Basic
/-!
# Simulated sites

A simulated cluster together with a journal: all that workers need around them.
Rounds that end as a script says stand in for real ones.
-/

namespace BrokerProbe

namespace Simulated

structure Site where
  cluster : Cluster
  journal : Journal

namespace Site

def environment : Environment Site where
  surroundings :=
    Cluster.surroundings.ofPart Site.cluster fun site cluster => { site with cluster }
  reporter := Journal.reporter.ofPart Site.journal fun site journal => { site with journal }

end Site

inductive Cue where
  | succeed
  | refuseAddress
  | refuseTopology
  | crash
  | stopAll
  deriving DecidableEq, Repr

def emptyOutcome (role : Role) : Round.Outcome :=
  { role, totalTopics := 0, assignedTopics := 0, assignedPartitions := 0, tries := 0,
    failures := 0, availability := none, latency := .none }

def Cue.round (role : Role) : Cue -> Round.Asking Round.Ending
  | succeed => return .completed (emptyOutcome role)
  | refuseAddress => return .refused (.notInRoster "" 0)
  | refuseTopology => return .refused (.topology (.unavailable Journal.reason))
  | crash => return .crashed
  | stopAll => do
      Round.Asking.stopAll
      return .completed (emptyOutcome role)

/-- The rounds of a script; past its end they succeed. -/
def scripted (role : Role) (script : List Cue) (run : Nat) : Round.Asking Round.Ending :=
  ((script[run]?).getD .succeed).round role

end Simulated

end BrokerProbe
