/-!
# Phase barriers

Participants meet at a barrier once per phase.  A phase ends when everyone who
is registered has arrived; to leave counts as arriving.  Participants come and
go at any time, and when the last one leaves the barrier closes for good.

Each operation is one step.  A participant that arrives early goes to sleep; it
is notified when the phase ends and may take its time to get up.
-/

namespace BrokerProbe

inductive BarrierError where
  | notRegistered (participant : Nat)
  | alreadyArrived (participant phase : Nat)
  | terminated (phase : Nat)
  deriving DecidableEq, Repr

namespace BarrierError

def message : BarrierError -> String
  | notRegistered participant => s!"participant {participant} is not registered"
  | alreadyArrived participant phase =>
      s!"participant {participant} already arrived in phase {phase}"
  | terminated phase => s!"barrier terminated at phase {phase}"

def code : BarrierError -> Int
  | notRegistered _ => -10
  | alreadyArrived _ _ => -11
  | terminated _ => -12

end BarrierError

namespace Barrier

structure Seat where
  participant : Nat
  arrived : Bool
  deriving DecidableEq, Repr

/-- A participant asleep since it arrived in a phase, and whether it was notified. -/
structure Sleeper where
  participant : Nat
  phase : Nat
  notified : Bool
  deriving DecidableEq, Repr

inductive Arrival where
  | advanced (phase : Nat)
  | asleep
  deriving DecidableEq, Repr

structure Census where
  phase : Nat
  registered : Nat
  arrived : Nat
  terminated : Bool
  deriving DecidableEq, Repr

end Barrier

structure Barrier where
  phase : Nat
  seats : List Barrier.Seat
  nextParticipant : Nat
  terminated : Bool
  sleepers : List Barrier.Sleeper
  deriving DecidableEq, Repr

namespace Barrier

def new : Barrier :=
  { phase := 0, seats := [], nextParticipant := 0, terminated := false, sleepers := [] }

instance : Inhabited Barrier := ⟨new⟩

def seat? (barrier : Barrier) (participant : Nat) : Option Seat :=
  barrier.seats.find? fun seat => seat.participant == participant

def arrivedCount (barrier : Barrier) : Nat :=
  barrier.seats.countP Seat.arrived

def census (barrier : Barrier) : Census :=
  { phase := barrier.phase
    registered := barrier.seats.length
    arrived := barrier.arrivedCount
    terminated := barrier.terminated }

def refusal? (barrier : Barrier) (participant : Nat) : Option BarrierError :=
  match barrier.seat? participant with
  | none => some (.notRegistered participant)
  | some seat =>
      if seat.arrived then some (.alreadyArrived participant barrier.phase) else none

def complete (barrier : Barrier) : Bool :=
  barrier.seats.all Seat.arrived

/--
Ends the phase if it is complete: the next one begins with nobody arrived, all
sleepers are notified, and a barrier without participants closes.
-/
def settle (barrier : Barrier) : Barrier :=
  if barrier.complete then
    { barrier with
      phase := barrier.phase + 1
      seats := barrier.seats.map fun seat => { seat with arrived := false }
      terminated := barrier.terminated || barrier.seats.isEmpty
      sleepers := barrier.sleepers.map fun sleeper => { sleeper with notified := true } }
  else barrier

def register (barrier : Barrier) : Except BarrierError Nat × Barrier :=
  if barrier.terminated then (.error (.terminated barrier.phase), barrier)
  else
    let participant := barrier.nextParticipant
    (.ok participant,
      { barrier with
        seats := barrier.seats ++ [{ participant, arrived := false }]
        nextParticipant := participant + 1 })

def vacate (barrier : Barrier) (participant : Nat) : Barrier :=
  { barrier with
    seats := barrier.seats.filter fun seat => seat.participant != participant }

def mark (barrier : Barrier) (participant : Nat) : Barrier :=
  { barrier with
    seats := barrier.seats.map fun seat =>
      if seat.participant = participant then { seat with arrived := true } else seat }

def leave (barrier : Barrier) (participant : Nat) : Except BarrierError Nat × Barrier :=
  match barrier.refusal? participant with
  | some error => (.error error, barrier)
  | none => (.ok barrier.phase, (barrier.vacate participant).settle)

def arrive (barrier : Barrier) (participant : Nat) :
    Except BarrierError Arrival × Barrier :=
  match barrier.refusal? participant with
  | some error => (.error error, barrier)
  | none =>
      let marked := barrier.mark participant
      if marked.complete then
        (.ok (.advanced (barrier.phase + 1)), marked.settle)
      else
        (.ok .asleep,
          { marked with
            sleepers := marked.sleepers ++
              [{ participant, phase := barrier.phase, notified := false }] })

def canResume (barrier : Barrier) (sleeper : Sleeper) : Bool :=
  sleeper.notified && sleeper.phase != barrier.phase

def sleeper? (barrier : Barrier) (participant phase : Nat) : Option Sleeper :=
  barrier.sleepers.find? fun sleeper =>
    sleeper.participant == participant && sleeper.phase == phase

/-- Gets a sleeper up; the answer is the phase that it finds. -/
def resume? (barrier : Barrier) (participant phase : Nat) : Option (Nat × Barrier) :=
  match barrier.sleeper? participant phase with
  | none => none
  | some sleeper =>
      if barrier.canResume sleeper then
        some (barrier.phase,
          { barrier with sleepers := barrier.sleepers.filter fun other => other != sleeper })
      else none

def resumeAll (barrier : Barrier) : List Nat × Barrier :=
  let woken := barrier.sleepers.partition barrier.canResume
  (woken.1.map Sleeper.participant, { barrier with sleepers := woken.2 })

end Barrier

end BrokerProbe
