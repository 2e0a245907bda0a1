import BrokerProbe.Barrier.Basic
import BrokerProbe.Metric.Reporter
import BrokerProbe.Metric.Shelf
import BrokerProbe.Round.Scene
/-!
# Workers

A worker runs one round per phase of a barrier, each inside a metrics session,
and meets the other workers in between.  Before its last round is over it leaves
instead of waiting, so that the last worker out closes the barrier.

Sessions report one registry.  The rounds of a worker record in it too, unless
the worker records aside, in a registry of another name.

A worker moves in steps.  Each step touches what the workers share at most
once, so any interleaving of threads is an interleaving of steps.
-/

namespace BrokerProbe

namespace Worker

structure Summary where
  role : Role
  rounds : Nat
  failedRounds : Nat
  finalPhase : Nat
  deriving DecidableEq, Repr

inductive Verdict where
  | finished (summary : Summary)
  | rejected (error : BarrierError)
  | panicked
  | abandoned
  deriving DecidableEq, Repr

inductive Closing where
  | unstarted
  | returned (ending : Round.Ending)
  | crashed

inductive Stage where
  | ready
  | rounding (rest : Round.Asking Round.Ending) (detached : Array Metric.Window)
  | reporting (ending : Round.Ending)
  | closing (closing : Closing)
  /-- Decide whether that was the last round. -/
  | judging
  | leaving
  | arriving
  | asleep (phase : Nat)
  | pausing
  /-- Look once more whether to stop. -/
  | checking
  /-- Give the seat back, with the verdict settled. -/
  | resigning (verdict : Verdict)
  | ended (verdict : Verdict)

end Worker

structure Worker where
  role : Role
  limit : Option Nat
  round : Nat -> Round.Asking Round.Ending
  /-- The registry that the rounds record in, if it is not the reported one. -/
  aside : Option String
  participant : Nat
  runs : Nat
  rounds : Nat
  failedRounds : Nat
  stage : Worker.Stage

structure Floor (World : Type) where
  barrier : Barrier
  registry : Metric.Registry
  /-- The registries that no session reports. -/
  shelf : Metric.Shelf
  stopping : Bool
  world : World

structure Environment (World : Type) where
  surroundings : Round.Surroundings World
  reporter : Metric.Reporter World

namespace Floor

variable {World : Type}

def ofWorld (world : World) : Floor World :=
  { barrier := .new, registry := .empty, shelf := .empty, stopping := false, world }

def registryOf (floor : Floor World) : Option String -> Metric.Registry
  | none => floor.registry
  | some name => floor.shelf.get name

def putRegistry (floor : Floor World) (aside : Option String) (registry : Metric.Registry) :
    Floor World :=
  match aside with
  | none => { floor with registry }
  | some name => { floor with shelf := floor.shelf.put name registry }

def scene (floor : Floor World) (aside : Option String) (detached : Array Metric.Window) :
    Round.Scene World :=
  { space := { registry := floor.registryOf aside, detached }
    stopping := floor.stopping
    world := floor.world }

def after (floor : Floor World) (aside : Option String) (scene : Round.Scene World) :
    Floor World :=
  { floor.putRegistry aside scene.space.registry with
    stopping := scene.stopping
    world := scene.world }

def tell (floor : Floor World) (environment : Environment World) (event : Event) :
    Floor World :=
  { floor with world := environment.surroundings.tell event floor.world }

end Floor

namespace Worker

variable {World : Type}

def seated (role : Role) (limit : Option Nat) (round : Nat -> Round.Asking Round.Ending)
    (aside : Option String) (participant : Nat) : Worker :=
  { role, limit, round, aside, participant, runs := 0, rounds := 0, failedRounds := 0,
    stage := .ready }

def abandon (worker : Worker) : Worker :=
  { worker with stage := .resigning .abandoned }

def verdict? (worker : Worker) : Option Verdict :=
  match worker.stage with
  | .ended verdict => some verdict
  | _ => none

def hasEnded (worker : Worker) : Bool :=
  worker.verdict?.isSome

def isWaiting (worker : Worker) : Bool :=
  match worker.stage with
  | .asleep _ => true
  | .pausing => true
  | _ => false

def move (worker : Worker) (stage : Stage) : Worker :=
  { worker with stage }

def summary (worker : Worker) (finalPhase : Nat) : Summary :=
  { role := worker.role
    rounds := worker.rounds
    failedRounds := worker.failedRounds
    finalPhase }

def limitReached (worker : Worker) : Bool :=
  match worker.limit with
  | some limit => limit <= worker.rounds
  | none => false

def countRound (worker : Worker) (failed : Bool) : Worker :=
  { worker with
    rounds := worker.rounds + 1
    failedRounds := if failed then worker.failedRounds + 1 else worker.failedRounds
    stage := .judging }

def afterSession (worker : Worker) : Closing -> Worker
  | .unstarted => worker.countRound true
  | .returned (.completed _) => worker.countRound false
  | .returned (.refused _) => worker.countRound true
  | .returned .crashed => worker.move (.resigning .panicked)
  | .crashed => worker.move (.resigning .panicked)

def sessionEvent? (worker : Worker) : Closing -> Option Event
  | .returned (.completed outcome) =>
      some (.roundCompleted worker.role outcome.tries outcome.failures)
  | .returned (.refused error) => some (.roundRefused worker.role error)
  | _ => none

def afterRound : Round.Ending -> Stage
  | .crashed => .closing .crashed
  | ending => .reporting ending

def stepReady (environment : Environment World) (worker : Worker) (floor : Floor World) :
    Worker × Floor World :=
  let started := environment.reporter.start floor.world
  let floor := { floor with world := started.2 }
  match started.1 with
  | .error _ => (worker.move (.closing .unstarted), floor)
  | .ok _ =>
      ({ worker with runs := worker.runs + 1, stage := .rounding (worker.round worker.runs) #[] },
        floor)

def stepRound (environment : Environment World) (worker : Worker) (floor : Floor World)
    (rest : Round.Asking Round.Ending) (detached : Array Metric.Window) :
    Worker × Floor World :=
  match rest with
  | .done ending => (worker.move (afterRound ending), floor)
  | .ask question next =>
      let given := (floor.scene worker.aside detached).reply environment.surroundings question
      (worker.move (.rounding (next given.1) given.2.space.detached),
        floor.after worker.aside given.2)

def stepReport (environment : Environment World) (worker : Worker) (floor : Floor World)
    (ending : Round.Ending) : Worker × Floor World :=
  let reported := environment.reporter.report floor.registry floor.world
  (worker.move (.closing (.returned ending)), { floor with world := reported.2 })

def stepClose (environment : Environment World) (worker : Worker) (floor : Floor World)
    (closing : Closing) : Worker × Floor World :=
  let floor := { floor with world := environment.reporter.stop floor.world }
  match worker.sessionEvent? closing with
  | some event => (worker.afterSession closing, floor.tell environment event)
  | none => (worker.afterSession closing, floor)

def stepLeave (worker : Worker) (floor : Floor World) : Worker × Floor World :=
  let left := floor.barrier.leave worker.participant
  let floor := { floor with barrier := left.2 }
  match left.1 with
  | .ok phase => (worker.move (.ended (.finished (worker.summary phase))), floor)
  | .error error => (worker.move (.ended (.rejected error)), floor)

def stepArrive (worker : Worker) (floor : Floor World) : Worker × Floor World :=
  let arrived := floor.barrier.arrive worker.participant
  let moved := { floor with barrier := arrived.2 }
  match arrived.1 with
  | .ok (.advanced _) => (worker.move .pausing, moved)
  | .ok .asleep => (worker.move (.asleep floor.barrier.phase), moved)
  | .error error => (worker.move (.resigning (.rejected error)), moved)

/-- The next step of a worker; there is none while it sleeps and once it has ended. -/
def step? (environment : Environment World) (worker : Worker) (floor : Floor World) :
    Option (Worker × Floor World) :=
  match worker.stage with
  | .ready => some (worker.stepReady environment floor)
  | .rounding rest detached => some (worker.stepRound environment floor rest detached)
  | .reporting ending => some (worker.stepReport environment floor ending)
  | .closing closing => some (worker.stepClose environment floor closing)
  | .judging =>
      some (worker.move (if floor.stopping || worker.limitReached then .leaving else .arriving),
        floor)
  | .leaving => some (worker.stepLeave floor)
  | .arriving => some (worker.stepArrive floor)
  | .asleep phase =>
      match floor.barrier.resume? worker.participant phase with
      | some resumed => some (worker.move .pausing, { floor with barrier := resumed.2 })
      | none => none
  | .pausing => some (worker.move .checking, floor)
  | .checking => some (worker.move (if floor.stopping then .leaving else .ready), floor)
  | .resigning verdict =>
      some (worker.move (.ended verdict),
        { floor with barrier := (floor.barrier.leave worker.participant).2 })
  | .ended _ => none

end Worker

end BrokerProbe
