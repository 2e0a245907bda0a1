import BrokerProbe.Dialogue
import BrokerProbe.Metric.Registry
/-!
# Metric space

Where a client records: the registry that all share, and the client's own
windows that nobody else sees.  Every question is one step that nothing can
interrupt; a window or gauge that was handed out is named by its handle.
-/

namespace BrokerProbe

namespace Metric

/-- Names a window: by the key it is registered under, or by number among one's own. -/
inductive Handle where
  | published (key : String)
  | detached (number : Nat)
  deriving DecidableEq, Repr, Inhabited

inductive Question where
  | window (key : String) (capacity : Nat)
  | gauge (key : String)
  | detach (capacity : Nat)
  | resize (handle : Handle) (capacity : Nat)
  | record (handle : Handle) (value : Nat)
  | read (handle : Handle)
  | set (key : String) (value : Float)

abbrev Answer : Question -> Type
  | .window _ _ => Except RegistryError Handle
  | .gauge _ => Except RegistryError Unit
  | .detach _ => Handle
  | .resize _ _ => Unit
  | .record _ _ => Unit
  | .read _ => Statistics
  | .set _ _ => Unit

abbrev Recording := Dialogue Question Answer

structure Space where
  registry : Registry
  detached : Array Window

instance : Inhabited Space := ⟨{ registry := .empty, detached := #[] }⟩

namespace Space

def ofRegistry (registry : Registry) : Space :=
  { registry, detached := #[] }

def window? (space : Space) : Handle -> Option Window
  | .published key =>
      match space.registry.get? key with
      | some (.window window) => some window
      | _ => none
  | .detached number => space.detached[number]?

def changeWindow (space : Space) (handle : Handle) (change : Window -> Window) : Space :=
  match handle with
  | .published key =>
      { space with
        registry := space.registry.change key fun
          | .window window => .window (change window)
          | .gauge value => .gauge value }
  | .detached number => { space with detached := space.detached.modify number change }

def setGauge (space : Space) (key : String) (value : Float) : Space :=
  { space with
    registry := space.registry.change key fun
      | .gauge _ => .gauge value
      | .window window => .window window }

def detach (space : Space) (capacity : Nat) : Handle × Space :=
  (.detached space.detached.size,
    { space with detached := space.detached.push (.empty capacity) })

def reply : (question : Question) -> Space -> Answer question × Space
  | .window key capacity, space =>
      let given := space.registry.window key capacity
      (given.1.map fun _ => .published key, { space with registry := given.2 })
  | .gauge key, space =>
      let given := space.registry.gauge key
      (given.1.map fun _ => (), { space with registry := given.2 })
  | .detach capacity, space => space.detach capacity
  | .resize handle capacity, space =>
      ((), space.changeWindow handle fun window => window.resize capacity)
  | .record handle value, space =>
      ((), space.changeWindow handle fun window => window.record value)
  | .read handle, space =>
      match space.window? handle with
      | some window => (Statistics.ofSamples window.values, space)
      | none => (Statistics.none, space)
  | .set key value, space => ((), space.setGauge key value)

end Space

namespace Recording

variable {Value : Type}

def run (recording : Recording Value) (space : Space) : Value × Space :=
  Dialogue.run Space.reply recording space

def window (key : String) (capacity : Nat) : Recording (Except RegistryError Handle) :=
  Dialogue.request (Question.window key capacity)

def gauge (key : String) : Recording (Except RegistryError Unit) :=
  Dialogue.request (Question.gauge key)

def detach (capacity : Nat) : Recording Handle :=
  Dialogue.request (Question.detach capacity)

def resize (handle : Handle) (capacity : Nat) : Recording Unit :=
  Dialogue.request (Question.resize handle capacity)

def record (handle : Handle) (value : Nat) : Recording Unit :=
  Dialogue.request (Question.record handle value)

def read (handle : Handle) : Recording Statistics :=
  Dialogue.request (Question.read handle)

def set (key : String) (value : Float) : Recording Unit :=
  Dialogue.request (Question.set key value)

end Recording

end Metric

end BrokerProbe
