import BrokerProbe.Simulated.Change
import BrokerProbe.Worker.Crew
/-!
# Rehearsals

A crew on a simulated site.  It may be led through its phases from a seat of its
own: the leader lets the workers arrive, may intervene, and then arrives last, so
that every phase ends when it says so.  A leader that is refused, its seat or what
it means to do, breaks the rehearsal off.  Without a leader the workers are left
to themselves.
-/

namespace BrokerProbe

namespace Simulated

namespace Rehearsal

inductive Play where
  | measured (measurement : Measurement)
  | scripted (script : List Cue)
  deriving DecidableEq, Repr

def Play.scriptLength : Play -> Nat
  | measured _ => 0
  | scripted script => script.length

def Play.isScripted : Play -> Bool
  | measured _ => false
  | scripted _ => true

structure Part where
  role : Role
  limit : Option Nat
  play : Play
  registry : String
  abandoned : Bool
  deriving DecidableEq, Repr

def Part.round (part : Part) : Nat -> Round.Asking Round.Ending :=
  match part.play with
  | .measured measurement => fun _ => measurement.round
  | .scripted script => scripted part.role script

def Part.horizon (part : Part) : Nat :=
  max (part.limit.getD 0) part.play.scriptLength

def horizon (parts : List Part) : Nat :=
  parts.foldl (fun most part => max most part.horizon) 0 + 2

/-!
# Leading
-/

abbrev Troupe := Crew Site

def arrive (leader : Nat) (crew : Troupe) : Troupe :=
  { crew with
    floor := { crew.floor with barrier := (crew.floor.barrier.arrive leader).2 } }

def leave (leader : Nat) (crew : Troupe) : Troupe :=
  { crew with
    floor := { crew.floor with barrier := (crew.floor.barrier.leave leader).2 } }

def interveneAll (group : List Intervention) (crew : Troupe) :
    Except Metric.RegistryError Troupe := do
  return { crew with floor := <- group.foldlM Site.intervene crew.floor }

/--
Leads a crew through one phase for each group of interventions, and ends when
nobody but the leader is left.  The answer holds the crew at the end of each
phase, before the interventions, and the crew at the very end.
-/
def lead (leader : Nat) :
    List (List Intervention) -> Troupe -> Except Metric.RegistryError (List Troupe × Troupe)
  | groups, crew =>
      let held := crew.phase Site.environment
      if held.floor.barrier.census.registered <= 1 then .ok ([held], leave leader held)
      else
        match groups with
        | [] => .ok ([held], leave leader held)
        | group :: rest => do
            let led <- lead leader rest (arrive leader (<- interveneAll group held))
            return (held :: led.1, led.2)

/-!
# Joining
-/

abbrev Place := Except BarrierError Nat

def joinPart (crew : Troupe) (part : Part) : Place × Troupe :=
  match crew.join part.role part.limit part.round (Site.aside? part.registry) with
  | (.ok _, joined) =>
      let index := crew.workers.length
      (.ok index,
        if part.abandoned then { joined with workers := joined.workers.modify index Worker.abandon }
        else joined)
  | (.error error, joined) => (.error error, joined)

def joinAll : List Part -> Troupe -> List Place × Troupe
  | [], crew => ([], crew)
  | part :: rest, crew =>
      let joined := joinPart crew part
      let others := joinAll rest joined.2
      (joined.1 :: others.1, others.2)

/-!
# Accounts
-/

structure Account where
  parts : List Part
  joined : Barrier.Census
  places : List Place
  phases : List Troupe
  ended : Troupe

def workerAt? (crew : Troupe) : Place -> Option Worker
  | .ok index => crew.workers[index]?
  | .error _ => none

def Account.runs (account : Account) (crew : Troupe) : List Nat :=
  account.parts.zipWith
    (fun part place =>
      if part.play.isScripted then ((workerAt? crew place).map Worker.runs).getD 0 else 0)
    account.places

def Account.verdicts (account : Account) : List (Option Worker.Verdict) :=
  account.places.map fun place =>
    match place with
    | .ok _ => (workerAt? account.ended place).bind Worker.verdict?
    | .error error => some (.rejected error)

def Account.calls? (account : Account) : Option (List String) :=
  if account.parts.length = 1 then some account.ended.floor.world.journal.calls.toList
  else none

def unled (parts : List Part) (floor : Floor Site) : Account :=
  let joined := joinAll parts { floor, workers := [] }
  { parts
    joined := joined.2.floor.barrier.census
    places := joined.1
    phases := []
    ended := joined.2.run Site.environment (horizon parts) }

inductive Refusal where
  | seat (error : BarrierError)
  | key (error : Metric.RegistryError)
  deriving DecidableEq, Repr

/-- Rehearses with a leader, which asks the workers to stop when the groups are used up. -/
def led (parts : List Part) (groups : List (List Intervention)) (floor : Floor Site) :
    Except Refusal Account := do
  let registered := floor.barrier.register
  let leader <- registered.1.mapError Refusal.seat
  let joined := joinAll parts { floor := { floor with barrier := registered.2 }, workers := [] }
  let run <- (lead leader (groups ++ [[.stopping true]]) joined.2).mapError Refusal.key
  return {
    parts
    joined := joined.2.floor.barrier.census
    places := joined.1
    phases := run.1
    ended := run.2 }

end Rehearsal

end Simulated

end BrokerProbe
