import BrokerProbe.Barrier.Basic
import Mathlib.Data.List.Nodup
/-!
# Operations of a barrier

What a barrier knows of one participant is its standing: none, or whether it has
arrived in the running phase.  Every call on a barrier is an operation, and
`Effect` lists all that an operation can do.
-/

namespace BrokerProbe

namespace Barrier

def standing (barrier : Barrier) (participant : Nat) : Option Bool :=
  (barrier.seat? participant).map Seat.arrived

/-!
# Refusals
-/

theorem refusal?_of_none {barrier : Barrier} {participant : Nat}
    (h : barrier.standing participant = none) :
    barrier.refusal? participant = some (.notRegistered participant) := by
  have hseat : barrier.seat? participant = none := by
    simpa [standing] using h
  simp [refusal?, hseat]

theorem refusal?_of_some {barrier : Barrier} {participant : Nat} {arrived : Bool}
    (h : barrier.standing participant = some arrived) :
    barrier.refusal? participant =
      if arrived then some (.alreadyArrived participant barrier.phase) else none := by
  rcases Option.map_eq_some_iff.mp h with ⟨seat, hseat, harrived⟩
  simp [refusal?, hseat, harrived]

theorem refusal?_eq_none_iff {barrier : Barrier} {participant : Nat} :
    barrier.refusal? participant = none <-> barrier.standing participant = some false := by
  cases h : barrier.standing participant with
  | none => simp [refusal?_of_none h]
  | some arrived => cases arrived <;> simp [refusal?_of_some h]

theorem standing_ne_of_refusal {barrier : Barrier} {participant : Nat} {error : BarrierError}
    (h : barrier.refusal? participant = some error) :
    barrier.standing participant ≠ some false := by
  intro hstanding
  rw [refusal?_eq_none_iff.mpr hstanding] at h
  cases h

/-!
# Seats and standings
-/

theorem exists_seat_of_standing {barrier : Barrier} {participant : Nat} {arrived : Bool}
    (h : barrier.standing participant = some arrived) :
    { participant, arrived } ∈ barrier.seats := by
  rcases Option.map_eq_some_iff.mp h with ⟨seat, hseat, harrived⟩
  have hmem := List.mem_of_find?_eq_some hseat
  have hsame : seat.participant = participant := by
    simpa using List.find?_some hseat
  rwa [<- hsame, <- harrived]

theorem standing_of_mem {barrier : Barrier} {seat : Seat}
    (hnodup : (barrier.seats.map Seat.participant).Nodup) (hmem : seat ∈ barrier.seats) :
    barrier.standing seat.participant = some seat.arrived := by
  cases h : barrier.seat? seat.participant with
  | none =>
      have hnone := List.find?_eq_none.mp h seat hmem
      simp at hnone
  | some found =>
      have hfound := List.mem_of_find?_eq_some h
      have hsame : found.participant = seat.participant := by
        simpa using List.find?_some h
      have heq := List.inj_on_of_nodup_map hnodup hfound hmem hsame
      simp [standing, h, heq]

theorem not_complete_of_standing {barrier : Barrier} {participant : Nat}
    (h : barrier.standing participant = some false) : barrier.complete = false := by
  have hmem := exists_seat_of_standing h
  cases hc : barrier.complete with
  | false => rfl
  | true =>
      have harrived := List.all_eq_true.mp hc _ hmem
      cases harrived

/-!
# The parts of an operation
-/

def nextPhase (barrier : Barrier) : Barrier :=
  { barrier with
    phase := barrier.phase + 1
    seats := barrier.seats.map fun seat => { seat with arrived := false }
    terminated := barrier.terminated || barrier.seats.isEmpty
    sleepers := barrier.sleepers.map fun sleeper => { sleeper with notified := true } }

def enlist (barrier : Barrier) : Barrier :=
  { barrier with
    seats := barrier.seats ++ [{ participant := barrier.nextParticipant, arrived := false }]
    nextParticipant := barrier.nextParticipant + 1 }

def lull (barrier : Barrier) (participant : Nat) : Barrier :=
  { barrier with
    sleepers := barrier.sleepers ++
      [{ participant, phase := barrier.phase, notified := false }] }

def rouse (barrier : Barrier) (sleeper : Sleeper) : Barrier :=
  { barrier with sleepers := barrier.sleepers.filter fun other => other != sleeper }

theorem settle_of_complete {barrier : Barrier} (h : barrier.complete = true) :
    barrier.settle = barrier.nextPhase := by
  simp [settle, h, nextPhase]

theorem settle_of_not_complete {barrier : Barrier} (h : barrier.complete = false) :
    barrier.settle = barrier := by
  simp [settle, h]

@[simp] theorem standing_vacate (barrier : Barrier) (participant other : Nat) :
    (barrier.vacate participant).standing other =
      if other = participant then none else barrier.standing other := by
  by_cases h : other = participant
  · have hnone : (barrier.vacate participant).seat? other = none := by
      apply List.find?_eq_none.mpr
      intro seat hseat
      have hne : seat.participant ≠ participant := by
        simpa using (List.mem_filter.mp hseat).2
      simpa [h] using hne
    rw [if_pos h, standing, hnone]
    rfl
  · have hsame : (barrier.vacate participant).seat? other = barrier.seat? other := by
      simp only [seat?, vacate, List.find?_filter]
      congr 1
      funext seat
      by_cases hseat : seat.participant = other
      · simp [hseat, h]
      · simp [hseat]
    rw [if_neg h, standing, hsame]
    rfl

@[simp] theorem standing_mark (barrier : Barrier) (participant other : Nat) :
    (barrier.mark participant).standing other =
      if other = participant then (barrier.standing other).map fun _ => true
      else barrier.standing other := by
  have hsame : (fun seat : Seat => seat.participant == other) ∘
      (fun seat : Seat =>
        if seat.participant = participant then { seat with arrived := true } else seat) =
      fun seat : Seat => seat.participant == other := by
    funext seat
    simp only [Function.comp_apply]
    split <;> rfl
  simp only [standing, seat?, mark, List.find?_map, hsame]
  cases h : barrier.seats.find? fun seat => seat.participant == other with
  | none => simp
  | some seat =>
      have hother : seat.participant = other := by
        simpa using List.find?_some h
      by_cases heq : other = participant
      · simp [hother, heq]
      · simp [hother, heq]

@[simp] theorem standing_nextPhase (barrier : Barrier) (participant : Nat) :
    barrier.nextPhase.standing participant =
      (barrier.standing participant).map fun _ => false := by
  have hsame : (fun seat : Seat => seat.participant == participant) ∘
      (fun seat : Seat => { seat with arrived := false }) =
      fun seat : Seat => seat.participant == participant := rfl
  simp only [standing, seat?, nextPhase, List.find?_map, hsame, Option.map_map]
  rfl

theorem standing_enlist {barrier : Barrier} {participant : Nat}
    (h : participant ≠ barrier.nextParticipant) :
    barrier.enlist.standing participant = barrier.standing participant := by
  have hnone : List.find? (fun seat : Seat => seat.participant == participant)
      [{ participant := barrier.nextParticipant, arrived := false }] = none := by
    simp [Ne.symm h]
  simp [standing, seat?, enlist, List.find?_append, hnone]

@[simp] theorem standing_lull (barrier : Barrier) (participant other : Nat) :
    (barrier.lull participant).standing other = barrier.standing other := rfl

/-!
# Operations
-/

inductive Operation where
  | register
  | leave (participant : Nat)
  | arrive (participant : Nat)
  | resume (participant phase : Nat)
  deriving DecidableEq, Repr

def perform (barrier : Barrier) : Operation -> Barrier
  | .register => barrier.register.2
  | .leave participant => (barrier.leave participant).2
  | .arrive participant => (barrier.arrive participant).2
  | .resume participant phase =>
      match barrier.resume? participant phase with
      | some resumed => resumed.2
      | none => barrier

def after (operations : List Operation) : Barrier :=
  operations.foldl perform new

def Idle (barrier : Barrier) : Operation -> Prop
  | .register => barrier.terminated = true
  | .leave participant => barrier.standing participant ≠ some false
  | .arrive participant => barrier.standing participant ≠ some false
  | .resume participant phase => barrier.resume? participant phase = none

/-- All that an operation can do to a barrier. -/
inductive Effect (barrier : Barrier) : Operation -> Barrier -> Prop where
  | nothing {operation : Operation} (hidle : barrier.Idle operation) :
      Effect barrier operation barrier
  | enlisted (hopen : barrier.terminated = false) :
      Effect barrier .register barrier.enlist
  | left {participant : Nat} (hstanding : barrier.standing participant = some false)
      (hcomplete : (barrier.vacate participant).complete = false) :
      Effect barrier (.leave participant) (barrier.vacate participant)
  | leftLast {participant : Nat} (hstanding : barrier.standing participant = some false)
      (hcomplete : (barrier.vacate participant).complete = true) :
      Effect barrier (.leave participant) (barrier.vacate participant).nextPhase
  | slept {participant : Nat} (hstanding : barrier.standing participant = some false)
      (hcomplete : (barrier.mark participant).complete = false) :
      Effect barrier (.arrive participant) ((barrier.mark participant).lull participant)
  | arrivedLast {participant : Nat} (hstanding : barrier.standing participant = some false)
      (hcomplete : (barrier.mark participant).complete = true) :
      Effect barrier (.arrive participant) (barrier.mark participant).nextPhase
  | roused {sleeper : Sleeper} (hmem : sleeper ∈ barrier.sleepers)
      (hnotified : sleeper.notified = true) (hphase : sleeper.phase ≠ barrier.phase) :
      Effect barrier (.resume sleeper.participant sleeper.phase) (barrier.rouse sleeper)

theorem leave_of_standing {barrier : Barrier} {participant : Nat}
    (h : barrier.standing participant = some false) :
    barrier.leave participant = (.ok barrier.phase, (barrier.vacate participant).settle) := by
  simp [leave, refusal?_eq_none_iff.mpr h]

theorem leave_of_refusal {barrier : Barrier} {participant : Nat} {error : BarrierError}
    (h : barrier.refusal? participant = some error) :
    barrier.leave participant = (.error error, barrier) := by
  simp [leave, h]

theorem arrive_of_complete {barrier : Barrier} {participant : Nat}
    (h : barrier.standing participant = some false)
    (hcomplete : (barrier.mark participant).complete = true) :
    barrier.arrive participant =
      (.ok (.advanced (barrier.phase + 1)), (barrier.mark participant).nextPhase) := by
  simp [arrive, refusal?_eq_none_iff.mpr h, hcomplete, settle_of_complete hcomplete]

theorem arrive_of_not_complete {barrier : Barrier} {participant : Nat}
    (h : barrier.standing participant = some false)
    (hcomplete : (barrier.mark participant).complete = false) :
    barrier.arrive participant =
      (.ok .asleep, (barrier.mark participant).lull participant) := by
  simp [arrive, refusal?_eq_none_iff.mpr h, hcomplete, lull]
  simp [mark]

theorem arrive_of_refusal {barrier : Barrier} {participant : Nat} {error : BarrierError}
    (h : barrier.refusal? participant = some error) :
    barrier.arrive participant = (.error error, barrier) := by
  simp [arrive, h]

theorem resume?_eq_some {barrier : Barrier} {participant phase : Nat} {resumed : Nat × Barrier}
    (h : barrier.resume? participant phase = some resumed) :
    exists sleeper, sleeper ∈ barrier.sleepers ∧ sleeper.participant = participant ∧
      sleeper.phase = phase ∧ sleeper.notified = true ∧ sleeper.phase ≠ barrier.phase ∧
      resumed = (barrier.phase, barrier.rouse sleeper) := by
  cases hfind : barrier.sleeper? participant phase with
  | none => simp [resume?, hfind] at h
  | some sleeper =>
      have hmem := List.mem_of_find?_eq_some hfind
      have hsame : sleeper.participant = participant ∧ sleeper.phase = phase := by
        simpa using List.find?_some hfind
      by_cases hcan : barrier.canResume sleeper = true
      · have hboth : sleeper.notified = true ∧ sleeper.phase ≠ barrier.phase := by
          simpa [canResume] using hcan
        simp only [resume?, hfind, hcan, if_true] at h
        cases h
        exact ⟨sleeper, hmem, hsame.1, hsame.2, hboth.1, hboth.2, rfl⟩
      · simp [resume?, hfind, hcan] at h

theorem effect_perform (barrier : Barrier) (operation : Operation) :
    Effect barrier operation (barrier.perform operation) := by
  -- What is refused changes nothing; what is granted may also end the phase.
  cases operation with
  | register =>
      cases h : barrier.terminated with
      | true =>
          have hsame : barrier.perform .register = barrier := by
            simp [perform, register, h]
          rw [hsame]
          exact .nothing h
      | false =>
          have henlist : barrier.perform .register = barrier.enlist := by
            simp [perform, register, h, enlist]
          rw [henlist]
          exact .enlisted h
  | leave participant =>
      cases href : barrier.refusal? participant with
      | some error =>
          rw [perform, leave_of_refusal href]
          exact .nothing (standing_ne_of_refusal href)
      | none =>
          have h := refusal?_eq_none_iff.mp href
          rw [perform, leave_of_standing h]
          cases hc : (barrier.vacate participant).complete with
          | false =>
              simp only [settle_of_not_complete hc]
              exact .left h hc
          | true =>
              simp only [settle_of_complete hc]
              exact .leftLast h hc
  | arrive participant =>
      cases href : barrier.refusal? participant with
      | some error =>
          rw [perform, arrive_of_refusal href]
          exact .nothing (standing_ne_of_refusal href)
      | none =>
          have h := refusal?_eq_none_iff.mp href
          cases hc : (barrier.mark participant).complete with
          | false =>
              rw [perform, arrive_of_not_complete h hc]
              exact .slept h hc
          | true =>
              rw [perform, arrive_of_complete h hc]
              exact .arrivedLast h hc
  | resume participant phase =>
      cases hres : barrier.resume? participant phase with
      | none =>
          simp only [perform, hres]
          exact .nothing hres
      | some resumed =>
          rcases resume?_eq_some hres with
            ⟨sleeper, hmem, rfl, rfl, hnotified, hphase, rfl⟩
          simp only [perform, hres]
          exact .roused hmem hnotified hphase

theorem perform_of_idle {barrier : Barrier} {operation : Operation}
    (hidle : barrier.Idle operation) :
    barrier.perform operation = barrier := by
  cases operation with
  | register =>
      have hclosed : barrier.terminated = true := hidle
      simp [perform, register, hclosed]
  | leave participant =>
      cases href : barrier.refusal? participant with
      | some error => simp [perform, leave_of_refusal href]
      | none => exact absurd (refusal?_eq_none_iff.mp href) hidle
  | arrive participant =>
      cases href : barrier.refusal? participant with
      | some error => simp [perform, arrive_of_refusal href]
      | none => exact absurd (refusal?_eq_none_iff.mp href) hidle
  | resume participant phase =>
      have hnone : barrier.resume? participant phase = none := hidle
      simp [perform, hnone]

end Barrier

end BrokerProbe
