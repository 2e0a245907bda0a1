/-!
# Stages of a round

A round over partitions goes through its stages in order.  One that cannot plan
stays where it is.
-/

namespace BrokerProbe

namespace Round

inductive Stage where
  | idle
  | planning
  | probing
  | reporting
  | done
  deriving DecidableEq, Repr, Inhabited

def Stage.label : Stage -> String
  | idle => "Idle"
  | planning => "Planning"
  | probing => "Probing"
  | reporting => "Reporting"
  | done => "Done"

end Round

end BrokerProbe
