import BrokerProbe.Round.Scene
import BrokerProbe.Round.Survey
import BrokerProbe.Round.Sweep
/-!
# Rounds in a row

Rounds that follow each other share nothing but the registry.  What answers
them, and what the world outside is like, can differ from one to the next.
-/

namespace BrokerProbe

namespace Round

/-- What a round is to do: measure an instance's shard, or one fetch of the metadata. -/
inductive Task where
  | sweep (address : String) (directory : Directory)
  | survey

namespace Task

def round (publisher : Metric.Publisher) : Task -> Asking Ending
  | sweep address directory => Sweep.round { address, directory, publisher }
  | survey => Survey.round { publisher }

def rounds (publisher : Metric.Publisher) : List Task -> Asking (List Ending)
  | [] => return []
  | task :: rest => do
      let ending <- task.round publisher
      let endings <- rounds publisher rest
      return ending :: endings

end Task

/-- What answers one round in a row; from the rounds before it comes the registry alone. -/
structure Occasion where
  World : Type
  surroundings : Surroundings World
  world : World
  stopping : Bool

namespace Occasion

def fetched (occasion : Occasion) : Except ClientError Topology :=
  (occasion.surroundings.fetch occasion.world).1.value

def scene (occasion : Occasion) (registry : Metric.Registry) : Scene occasion.World :=
  { space := .ofRegistry registry
    stopping := occasion.stopping
    world := occasion.world }

def transcript {Value : Type} (occasion : Occasion) (asking : Asking Value)
    (registry : Metric.Registry) : List (Dialogue.Exchange Question Answer) :=
  Dialogue.transcript (Scene.reply occasion.surroundings) asking (occasion.scene registry)

def play (occasion : Occasion) (asking : Asking Ending) (registry : Metric.Registry) :
    Ending × Metric.Registry :=
  let played := Scene.play occasion.surroundings asking {
    space := .ofRegistry registry
    stopping := occasion.stopping
    world := occasion.world }
  (played.1, played.2.space.registry)

end Occasion

def series (asking : Asking Ending) :
    List Occasion -> Metric.Registry -> List Ending × Metric.Registry
  | [], registry => ([], registry)
  | occasion :: rest, registry =>
      let played := occasion.play asking registry
      let later := series asking rest played.2
      (played.1 :: later.1, later.2)

variable {asking : Asking Ending} {registry : Metric.Registry}

theorem series_append_snd (first second : List Occasion) :
    (series asking (first ++ second) registry).2 =
      (series asking second (series asking first registry).2).2 := by
  induction first generalizing registry with
  | nil => rfl
  | cons occasion rest ih => exact ih

end Round

end BrokerProbe
