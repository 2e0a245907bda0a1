import BrokerProbe.Round.Basic
/-!
# Scenes

What answers a round: the metric space it records in, the world outside, and
the flag that asks all workers to stop.
-/

namespace BrokerProbe

namespace Round

structure Surroundings (World : Type) where
  fetch : World -> Timed (Except ClientError Topology) × World
  close : World -> World
  peers : World -> Except ClientError Roster × World
  read : Partition -> World -> Read × World
  tell : Event -> World -> World

/-- The same answers, given by a part of a larger world. -/
def Surroundings.ofPart {Part World : Type} (surroundings : Surroundings Part)
    (part : World -> Part) (put : World -> Part -> World) : Surroundings World where
  fetch world :=
    let given := surroundings.fetch (part world)
    (given.1, put world given.2)
  close world := put world (surroundings.close (part world))
  peers world :=
    let given := surroundings.peers (part world)
    (given.1, put world given.2)
  read partition world :=
    let given := surroundings.read partition (part world)
    (given.1, put world given.2)
  tell event world := put world (surroundings.tell event (part world))

structure Setting (Place World : Type) where
  space : Place
  stopping : Bool
  world : World

/-- A place answers for itself, and the world outside answers the rest. -/
def Setting.reply {Place World : Type}
    (records : (question : Metric.Question) -> Place -> Metric.Answer question × Place)
    (surroundings : Surroundings World) :
    (question : Question) -> Setting Place World -> Answer question × Setting Place World
  | .metric question, setting =>
      let given := records question setting.space
      (given.1, { setting with space := given.2 })
  | .fetch, setting =>
      let given := surroundings.fetch setting.world
      (given.1, { setting with world := given.2 })
  | .close, setting => ((), { setting with world := surroundings.close setting.world })
  | .peers (.fixed roster), setting => (.ok roster, setting)
  | .peers .service, setting =>
      let given := surroundings.peers setting.world
      (given.1, { setting with world := given.2 })
  | .read partition, setting =>
      let given := surroundings.read partition setting.world
      (given.1, { setting with world := given.2 })
  | .tell event, setting =>
      ((), { setting with world := surroundings.tell event setting.world })
  | .stopAll, setting => ((), { setting with stopping := true })

abbrev Scene := Setting Metric.Space

namespace Scene

variable {World Value : Type}

def reply (surroundings : Surroundings World) (question : Question) (scene : Scene World) :
    Answer question × Scene World :=
  Setting.reply Metric.Space.reply surroundings question scene

def play (surroundings : Surroundings World) (asking : Asking Value) (scene : Scene World) :
    Value × Scene World :=
  asking.run (reply surroundings) scene

end Scene

end Round

end BrokerProbe
