import BrokerProbe.Worker.Basic
/-!
# Crews

The workers of one barrier and what they share.  A crew moves by a step of any
of its workers; nothing else happens except from outside.  For a run without
threads the workers take turns, each going through one phase at a time.
-/

namespace BrokerProbe

structure Crew (World : Type) where
  floor : Floor World
  workers : List Worker

namespace Crew

variable {World : Type}

def ofWorld (world : World) : Crew World :=
  { floor := .ofWorld world, workers := [] }

def join (crew : Crew World) (role : Role) (limit : Option Nat)
    (round : Nat -> Round.Asking Round.Ending) (aside : Option String) :
    Except BarrierError Unit × Crew World :=
  let registered := crew.floor.barrier.register
  let floor := { crew.floor with barrier := registered.2 }
  match registered.1 with
  | .ok participant =>
      (.ok (),
        { floor, workers := crew.workers ++ [.seated role limit round aside participant] })
  | .error error => (.error error, { crew with floor })

def step? (environment : Environment World) (crew : Crew World) (index : Nat) :
    Option (Crew World) := do
  let worker <- crew.workers[index]?
  let (worker, floor) <- worker.step? environment crew.floor
  return { floor, workers := crew.workers.set index worker }

def requestStop (crew : Crew World) : Crew World :=
  { crew with floor := { crew.floor with stopping := true } }

def allEnded (crew : Crew World) : Bool :=
  crew.workers.all Worker.hasEnded

/-!
# Taking turns
-/

/-- Goes on with a worker: all that is left of a round at once, else one step. -/
def advance? (environment : Environment World) (worker : Worker) (floor : Floor World) :
    Option (Worker × Floor World) :=
  match worker.stage with
  | .rounding rest detached =>
      let played := (floor.scene worker.aside detached).play environment.surroundings rest
      some (worker.move (Worker.afterRound played.1), floor.after worker.aside played.2)
  | _ => worker.step? environment floor

def advanceUntil (environment : Environment World) (enough : Worker -> Bool) :
    Nat -> Worker × Floor World -> Worker × Floor World
  | 0, now => now
  | moves + 1, now =>
      if enough now.1 then now
      else
        match advance? environment now.1 now.2 with
        | some next => advanceUntil environment enough moves next
        | none => now

def movesPerPhase : Nat := 12

/--
The turn of a worker: it gets up if the phase is over, and goes through the
next one until it has arrived at the barrier or left it.
-/
def turn (environment : Environment World) (now : Worker × Floor World) :
    Worker × Floor World :=
  let woken := advanceUntil environment (fun worker => !worker.isWaiting) movesPerPhase now
  advanceUntil environment (fun worker => worker.isWaiting || worker.hasEnded) movesPerPhase woken

def turns (environment : Environment World) :
    List Worker -> Floor World -> List Worker × Floor World
  | [], floor => ([], floor)
  | worker :: rest, floor =>
      let moved := turn environment (worker, floor)
      let others := turns environment rest moved.2
      (moved.1 :: others.1, others.2)

def phase (environment : Environment World) (crew : Crew World) : Crew World :=
  let moved := turns environment crew.workers crew.floor
  { floor := moved.2, workers := moved.1 }

def run (environment : Environment World) : Nat -> Crew World -> Crew World
  | 0, crew => crew
  | phases + 1, crew =>
      if crew.allEnded then crew else run environment phases (crew.phase environment)

end Crew

end BrokerProbe
