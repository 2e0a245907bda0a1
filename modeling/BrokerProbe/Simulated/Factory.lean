import BrokerProbe.Fleet
import BrokerProbe.Simulated.Site
/-!
# Clients of simulated clusters

Clients are there at once, unless one kind of them is made to fail.
-/

namespace BrokerProbe

namespace Simulated

structure Factory where
  failTopology : Bool
  failReader : Bool
  service : Bool
  deriving DecidableEq, Repr

namespace Factory

def make (fails : Bool) (reason : String) : Except ClientError Unit :=
  if fails then .error (.unavailable reason) else .ok ()

def clients {World : Type} (factory : Factory) : Clients World where
  topology world := (make factory.failTopology "no topology client", world)
  reader world := (make factory.failReader "no reader client", world)
  directory roster := if factory.service then .service else .fixed roster

end Factory

end Simulated

end BrokerProbe
