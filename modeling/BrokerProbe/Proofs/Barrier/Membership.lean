import BrokerProbe.Proofs.Barrier.Hold
/-!
# Membership

Who belongs to a barrier, and who has arrived, can be told from the calls that
were made.  From this follows exactly when a call is refused and when a phase
ends.  Numbers are handed out once, so who has left stays away; and a barrier
that has closed stays closed.
-/

namespace BrokerProbe

namespace Barrier

variable {barrier next : Barrier} {operation : Operation} {operations rest : List Operation}
variable {participant : Nat}

/-!
# Refusals of calls
-/

def errorOf {Value : Type} : Except BarrierError Value -> Option BarrierError
  | .ok _ => none
  | .error error => some error

def error? (barrier : Barrier) : Operation -> Option BarrierError
  | .register => errorOf barrier.register.1
  | .leave participant => errorOf (barrier.leave participant).1
  | .arrive participant => errorOf (barrier.arrive participant).1
  | .resume _ _ => none

def Operation.arriver? : Operation -> Option Nat
  | leave participant => some participant
  | arrive participant => some participant
  | _ => none

theorem error?_of_arriver? (h : operation.arriver? = some participant) :
    barrier.error? operation = barrier.refusal? participant := by
  cases operation with
  | register => cases h
  | resume => cases h
  | leave other =>
      cases h
      cases href : barrier.refusal? participant with
      | some error => simp [error?, leave_of_refusal href, errorOf]
      | none => simp [error?, leave_of_standing (refusal?_eq_none_iff.mp href), errorOf]
  | arrive other =>
      cases h
      cases href : barrier.refusal? participant with
      | some error => simp [error?, arrive_of_refusal href, errorOf]
      | none =>
          have hstanding := refusal?_eq_none_iff.mp href
          cases hcomplete : (barrier.mark participant).complete with
          | true => simp [error?, arrive_of_complete hstanding hcomplete, errorOf]
          | false => simp [error?, arrive_of_not_complete hstanding hcomplete, errorOf]

theorem error?_register_eq_some {error : BarrierError} :
    barrier.error? .register = some error <->
      error = .terminated barrier.phase ∧ barrier.terminated = true := by
  cases h : barrier.terminated with
  | true => simp [error?, register, h, errorOf, eq_comm]
  | false => simp [error?, register, h, errorOf]

theorem refusal?_eq_some {error : BarrierError} :
    barrier.refusal? participant = some error <->
      error = .notRegistered participant ∧ barrier.standing participant = none ∨
        error = .alreadyArrived participant barrier.phase ∧
          barrier.standing participant = some true := by
  cases h : barrier.standing participant with
  | none => simp [refusal?_of_none h, eq_comm]
  | some arrived => cases arrived <;> simp [refusal?_of_some h, eq_comm]

theorem idle_of_error? {error : BarrierError} (h : barrier.error? operation = some error) :
    barrier.Idle operation := by
  cases operation with
  | register => exact (error?_register_eq_some.mp h).2
  | leave participant =>
      rw [error?_of_arriver? rfl] at h
      exact standing_ne_of_refusal h
  | arrive participant =>
      rw [error?_of_arriver? rfl] at h
      exact standing_ne_of_refusal h
  | resume participant phase => cases h

/-!
# The end of a phase
-/

def LastAbsent (barrier : Barrier) (participant : Nat) : Prop :=
  barrier.standing participant = some false ∧
    forall seat, seat ∈ barrier.seats -> seat.arrived = false -> seat.participant = participant

theorem complete_vacate_iff :
    (barrier.vacate participant).complete = true <->
      forall seat, seat ∈ barrier.seats -> seat.arrived = false ->
        seat.participant = participant := by
  simp only [complete, vacate, List.all_filter, List.all_eq_true]
  refine forall_congr' fun seat => imp_congr_right fun _ => ?_
  by_cases h : seat.participant = participant <;> simp [h]

theorem complete_mark_iff :
    (barrier.mark participant).complete = true <->
      forall seat, seat ∈ barrier.seats -> seat.arrived = false ->
        seat.participant = participant := by
  simp only [complete, mark, List.all_map, List.all_eq_true]
  refine forall_congr' fun seat => imp_congr_right fun _ => ?_
  by_cases h : seat.participant = participant <;> simp [h]

theorem phase_of_effect (heffect : Effect barrier operation next) :
    (next.phase = barrier.phase + 1 ∧
        exists participant, operation.arriver? = some participant ∧
          barrier.LastAbsent participant) ∨
      next.phase = barrier.phase ∧
        forall participant, operation.arriver? = some participant ->
          ¬ barrier.LastAbsent participant := by
  cases heffect with
  | nothing hidle =>
      refine Or.inr ⟨rfl, ?_⟩
      intro participant harriver hlast
      cases operation with
      | register => cases harriver
      | resume => cases harriver
      | leave other =>
          cases harriver
          exact hidle hlast.1
      | arrive other =>
          cases harriver
          exact hidle hlast.1
  | enlisted => exact Or.inr ⟨rfl, fun _ harriver => nomatch harriver⟩
  | left _ hcomplete =>
      refine Or.inr ⟨rfl, ?_⟩
      intro participant harriver hlast
      cases harriver
      rw [complete_vacate_iff.mpr hlast.2] at hcomplete
      cases hcomplete
  | leftLast hstanding hcomplete =>
      exact Or.inl ⟨rfl, _, rfl, hstanding, complete_vacate_iff.mp hcomplete⟩
  | slept _ hcomplete =>
      refine Or.inr ⟨rfl, ?_⟩
      intro participant harriver hlast
      cases harriver
      rw [complete_mark_iff.mpr hlast.2] at hcomplete
      cases hcomplete
  | arrivedLast hstanding hcomplete =>
      exact Or.inl ⟨rfl, _, rfl, hstanding, complete_mark_iff.mp hcomplete⟩
  | roused => exact Or.inr ⟨rfl, fun _ harriver => nomatch harriver⟩

/-!
# What has happened in a run
-/

/-- Whether some operation of a run was, when its turn came, of a certain kind. -/
def Happened (event : Barrier -> Operation -> Prop) (operations : List Operation) : Prop :=
  exists before operation rest, operations = before ++ operation :: rest ∧
    event (after before) operation

theorem not_happened_nil (event : Barrier -> Operation -> Prop) : ¬ Happened event [] := by
  rintro ⟨before, operation, rest, heq, _⟩
  simp at heq

theorem happened_append_singleton {event : Barrier -> Operation -> Prop} :
    Happened event (operations ++ [operation]) <->
      Happened event operations ∨ event (after operations) operation := by
  constructor
  · rintro ⟨before, done, rest, heq, hevent⟩
    induction rest using List.reverseRecOn with
    | nil =>
      rcases List.append_inj' heq rfl with ⟨rfl, hsame⟩
      cases hsame
      exact Or.inr hevent
    | append_singleton rest last _ =>
      have hsplit : operations ++ [operation] = (before ++ done :: rest) ++ [last] := by
        simpa using heq
      rcases List.append_inj' hsplit rfl with ⟨rfl, _⟩
      exact Or.inl ⟨before, done, rest, rfl, hevent⟩
  · rintro (⟨before, done, rest, rfl, hevent⟩ | hevent)
    · exact ⟨before, done, rest ++ [operation], by simp, hevent⟩
    · exact ⟨operations, operation, [], rfl, hevent⟩

theorem Happened.append {event : Barrier -> Operation -> Prop} (h : Happened event operations)
    (rest : List Operation) : Happened event (operations ++ rest) := by
  rcases h with ⟨before, done, later, rfl, hevent⟩
  exact ⟨before, done, later ++ rest, by simp, hevent⟩

def HandedOut (operations : List Operation) (participant : Nat) : Prop :=
  Happened (fun barrier operation =>
    operation = .register ∧ barrier.register.1 = .ok participant) operations

def HasLeft (operations : List Operation) (participant : Nat) : Prop :=
  Happened (fun barrier operation =>
    operation = .leave participant ∧ barrier.error? operation = none) operations

def HasArrived (operations : List Operation) (participant : Nat) : Prop :=
  Happened (fun barrier operation =>
    operation = .arrive participant ∧ barrier.error? operation = none ∧
      barrier.phase = (after operations).phase) operations

/-!
# Numbers
-/

theorem register_eq_ok :
    barrier.register.1 = .ok participant <->
      barrier.terminated = false ∧ barrier.nextParticipant = participant := by
  cases h : barrier.terminated <;> simp [register, h]

theorem lt_nextParticipant_effect (heffect : Effect barrier operation next) :
    participant < next.nextParticipant <->
      participant < barrier.nextParticipant ∨
        operation = .register ∧ barrier.register.1 = .ok participant := by
  cases heffect with
  | nothing hidle =>
      constructor
      · exact Or.inl
      · rintro (hlt | ⟨rfl, hok⟩)
        · exact hlt
        · have hclosed : barrier.terminated = true := hidle
          rw [(register_eq_ok.mp hok).1] at hclosed
          cases hclosed
  | enlisted hopen =>
      simp only [Barrier.enlist, register_eq_ok, hopen, true_and]
      omega
  | left => simp [Barrier.vacate]
  | leftLast => simp [Barrier.nextPhase, Barrier.vacate]
  | slept => simp [lull, Barrier.mark]
  | arrivedLast => simp [Barrier.nextPhase, Barrier.mark]
  | roused => simp [Barrier.rouse]

theorem handedOut_iff :
    HandedOut operations participant <-> participant < (after operations).nextParticipant := by
  induction operations using List.reverseRecOn with
  | nil =>
    constructor
    · exact fun h => absurd h (not_happened_nil _)
    · exact fun h => absurd h (Nat.not_lt_zero _)
  | append_singleton operations operation ih =>
    rw [HandedOut, happened_append_singleton, <- HandedOut, ih, after_append,
      lt_nextParticipant_effect (effect_perform _ operation)]

theorem HasLeft.handedOut (h : HasLeft operations participant) :
    HandedOut operations participant := by
  rcases h with ⟨before, operation, rest, rfl, rfl, hnone⟩
  rw [error?_of_arriver? rfl, refusal?_eq_none_iff] at hnone
  have hlt := (sound_after before).lt_of_registered (by rw [hnone]; rfl)
  exact (handedOut_iff.mpr hlt).append _

/-!
# Who is registered
-/

theorem error?_leave_eq_none :
    barrier.error? (.leave participant) = none <->
      barrier.standing participant = some false := by
  rw [error?_of_arriver? rfl, refusal?_eq_none_iff]

theorem error?_arrive_eq_none :
    barrier.error? (.arrive participant) = none <->
      barrier.standing participant = some false := by
  rw [error?_of_arriver? rfl, refusal?_eq_none_iff]

theorem isSome_standing_effect_iff (hsound : Sound barrier)
    (heffect : Effect barrier operation next) :
    (next.standing participant).isSome = true <->
      ((barrier.standing participant).isSome = true ∨
          operation = .register ∧ barrier.register.1 = .ok participant) ∧
        ¬ (operation = .leave participant ∧ barrier.error? operation = none) := by
  cases heffect with
  | nothing hidle =>
      have hregister : ¬ (operation = .register ∧ barrier.register.1 = .ok participant) := by
        rintro ⟨rfl, hok⟩
        have hclosed : barrier.terminated = true := hidle
        rw [(register_eq_ok.mp hok).1] at hclosed
        cases hclosed
      have hleave : ¬ (operation = .leave participant ∧ barrier.error? operation = none) := by
        rintro ⟨rfl, hnone⟩
        exact hidle (error?_leave_eq_none.mp hnone)
      simp [hregister, hleave]
  | enlisted hopen =>
      by_cases heq : participant = barrier.nextParticipant
      · have hstanding := hsound.hold_enlist.1
        simp [heq, hstanding, register_eq_ok, hopen]
      · simp [standing_enlist heq, register_eq_ok, Ne.symm heq]
  | @left other hstanding =>
      by_cases heq : participant = other
      · simp [heq, error?_leave_eq_none, hstanding]
      · simp [heq, Ne.symm heq]
  | @leftLast other hstanding =>
      by_cases heq : participant = other
      · simp [heq, error?_leave_eq_none, hstanding]
      · simp [heq, Ne.symm heq]
  | @slept other =>
      by_cases heq : participant = other <;> simp [heq]
  | @arrivedLast other =>
      by_cases heq : participant = other <;> simp [heq]
  | roused => simp [rouse, standing, seat?]

theorem registered_iff :
    ((after operations).standing participant).isSome = true <->
      HandedOut operations participant ∧ ¬ HasLeft operations participant := by
  induction operations using List.reverseRecOn with
  | nil =>
    constructor
    · exact fun h => nomatch h
    · exact fun h => absurd h.1 (not_happened_nil _)
  | append_singleton operations operation ih =>
    -- A number that is handed out now has not been used to leave before.
    have hfresh : operation = .register ∧ (after operations).register.1 = .ok participant ->
        ¬ HasLeft operations participant := by
      rintro ⟨_, hok⟩ hleft
      have hlt := handedOut_iff.mp hleft.handedOut
      exact Nat.ne_of_gt hlt (register_eq_ok.mp hok).2
    rw [after_append,
      isSome_standing_effect_iff (sound_after operations) (effect_perform _ operation), ih]
    simp only [HandedOut, HasLeft, happened_append_singleton, not_or] at hfresh ⊢
    tauto

/-!
# Who has arrived
-/

theorem standing_true_effect (hsound : Sound barrier) (heffect : Effect barrier operation next)
    (hphase : next.phase = barrier.phase) :
    next.standing participant = some true <->
      barrier.standing participant = some true ∨
        operation = .arrive participant ∧ barrier.error? operation = none := by
  cases heffect with
  | nothing hidle =>
      have harrive : ¬ (operation = .arrive participant ∧ barrier.error? operation = none) := by
        rintro ⟨rfl, hnone⟩
        exact hidle (error?_arrive_eq_none.mp hnone)
      simp [harrive]
  | enlisted =>
      by_cases heq : participant = barrier.nextParticipant
      · have hafter := hsound.hold_enlist.1
        have hbefore : barrier.standing participant ≠ some true := by
          intro harrived
          have hlt := hsound.lt_of_registered (by rw [harrived]; rfl)
          exact Nat.ne_of_lt hlt heq
        simp [hbefore, heq ▸ hafter]
      · simp [standing_enlist heq]
  | @left other hstanding =>
      by_cases heq : participant = other
      · simp [heq, hstanding]
      · simp [heq]
  | leftLast => exact absurd hphase (Nat.succ_ne_self _)
  | @slept other hstanding =>
      by_cases heq : participant = other
      · simp [heq, hstanding, error?_arrive_eq_none]
      · simp [heq, Ne.symm heq]
  | arrivedLast => exact absurd hphase (Nat.succ_ne_self _)
  | roused => simp [rouse, standing, seat?]

theorem standing_ne_true_effect (heffect : Effect barrier operation next)
    (hphase : next.phase = barrier.phase + 1) : next.standing participant ≠ some true := by
  cases heffect with
  | leftLast => simp
  | arrivedLast => simp
  | _ => exact absurd hphase.symm (Nat.succ_ne_self _)

theorem phase_le_of_happened {event : Barrier -> Operation -> Prop} {phase : Nat}
    (hevent : forall barrier operation, event barrier operation -> barrier.phase = phase)
    (h : Happened event operations) : phase <= (after operations).phase := by
  induction operations using List.reverseRecOn with
  | nil => exact absurd h (not_happened_nil _)
  | append_singleton operations operation ih =>
    have hle : (after operations).phase <= (after (operations ++ [operation])).phase := by
      rw [after_append]
      rcases phase_effect (effect_perform (after operations) operation) with hsame | ⟨hnext, _⟩
      · exact Nat.le_of_eq hsame.symm
      · rw [hnext]
        exact Nat.le_succ _
    rcases happened_append_singleton.mp h with hbefore | hnow
    · exact Nat.le_trans (ih hbefore) hle
    · rw [<- hevent _ _ hnow]
      exact hle

theorem arrived_iff :
    (after operations).standing participant = some true <->
      HasArrived operations participant := by
  induction operations using List.reverseRecOn with
  | nil =>
    constructor
    · exact fun h => nomatch h
    · exact fun h => absurd h (not_happened_nil _)
  | append_singleton operations operation ih =>
    rw [HasArrived, happened_append_singleton, after_append]
    have heffect := effect_perform (after operations) operation
    rcases phase_effect heffect with hsame | ⟨hnext, _⟩
    · rw [standing_true_effect (sound_after operations) heffect hsame, ih, hsame]
      simp [HasArrived]
    · -- The phase has just begun, so nothing has happened in it.
      refine iff_of_false (standing_ne_true_effect heffect hnext) ?_
      rw [hnext]
      rintro (hbefore | ⟨_, _, hnow⟩)
      · have hle := phase_le_of_happened (fun _ _ hevent => hevent.2.2) hbefore
        exact Nat.not_succ_le_self _ hle
      · exact Nat.succ_ne_self _ hnow.symm

/-!
# Closed barriers
-/

theorem Sound.closed_effect (h : Sound barrier) (hclosed : barrier.terminated = true)
    (heffect : Effect barrier operation next) :
    next.terminated = true ∧ next.phase = barrier.phase := by
  have hopen : forall {participant : Nat}, barrier.standing participant ≠ some false := by
    intro participant hstanding
    rw [(h.open_of_standing hstanding).1] at hclosed
    cases hclosed
  cases heffect with
  | nothing => exact ⟨hclosed, rfl⟩
  | enlisted hnot =>
      rw [hnot] at hclosed
      cases hclosed
  | left hstanding => exact absurd hstanding hopen
  | leftLast hstanding => exact absurd hstanding hopen
  | slept hstanding => exact absurd hstanding hopen
  | arrivedLast hstanding => exact absurd hstanding hopen
  | roused => exact ⟨hclosed, rfl⟩

theorem closed_after_append (hclosed : (after operations).terminated = true)
    (rest : List Operation) :
    (after (operations ++ rest)).terminated = true ∧
      (after (operations ++ rest)).phase = (after operations).phase := by
  induction rest using List.reverseRecOn with
  | nil => simpa using hclosed
  | append_singleton rest operation ih =>
    rw [<- List.append_assoc, after_append]
    have hstep := (sound_after (operations ++ rest)).closed_effect ih.1 (effect_perform _ operation)
    exact ⟨hstep.1, hstep.2.trans ih.2⟩

theorem Sound.standing_of_closed (h : Sound barrier) (hclosed : barrier.terminated = true) :
    barrier.standing participant = none := by
  have hnil := (h.terminated_iff.mp hclosed).1
  simp [standing, seat?, hnil]

/-!
# The rules of a barrier
-/

/--
What the calls of a run come to.  Who is registered and who has arrived is told
by the calls before.  A phase ends when the last one that is absent arrives, and
by nothing else.  A refused call has its one reason and changes nothing.
-/
structure Ruled (operations : List Operation) : Prop where
  registered_iff : forall participant,
    ((after operations).standing participant).isSome = true <->
      HandedOut operations participant ∧ ¬ HasLeft operations participant
  arrived_iff : forall participant,
    (after operations).standing participant = some true <-> HasArrived operations participant
  phase_perform : forall operation,
    (((after operations).perform operation).phase = (after operations).phase + 1 ∧
        (after operations).error? operation = none ∧
        exists participant, operation.arriver? = some participant ∧
          (after operations).LastAbsent participant) ∨
      ((after operations).perform operation).phase = (after operations).phase ∧
        forall participant, operation.arriver? = some participant ->
          ¬ (after operations).LastAbsent participant
  refused_iff : forall operation participant, operation.arriver? = some participant ->
    forall error, (after operations).error? operation = some error <->
      error = .notRegistered participant ∧
          (after operations).standing participant = none ∨
        error = .alreadyArrived participant (after operations).phase ∧
          (after operations).standing participant = some true
  register_refused_iff : forall error, (after operations).error? .register = some error <->
    error = .terminated (after operations).phase ∧ (after operations).terminated = true
  unchanged : forall operation error, (after operations).error? operation = some error ->
    (after operations).perform operation = after operations
  fresh : forall participant, (after operations).register.1 = .ok participant ->
    ¬ HandedOut operations participant
  gone : forall participant, HasLeft operations participant ->
    forall rest operation, operation.arriver? = some participant ->
      (after (operations ++ rest)).error? operation = some (.notRegistered participant) ∧
        (after (operations ++ rest)).perform operation = after (operations ++ rest)
  closed : (after operations).terminated = true -> forall rest,
    (after (operations ++ rest)).terminated = true ∧
      (after (operations ++ rest)).phase = (after operations).phase ∧
      (after (operations ++ rest)).error? .register =
        some (.terminated (after operations).phase) ∧
      forall operation participant, operation.arriver? = some participant ->
        (after (operations ++ rest)).error? operation = some (.notRegistered participant)

theorem error?_of_standing_none (harriver : operation.arriver? = some participant)
    (hnone : barrier.standing participant = none) :
    barrier.error? operation = some (.notRegistered participant) := by
  rw [error?_of_arriver? harriver, refusal?_of_none hnone]

/-- Whatever calls are made, and by whomever, a barrier keeps to its rules. -/
theorem ruled_after (operations : List Operation) : Ruled operations := by
  have hsound := sound_after operations
  constructor
  · exact fun _ => Barrier.registered_iff
  · exact fun _ => Barrier.arrived_iff
  · intro operation
    rcases phase_of_effect (effect_perform (after operations) operation) with
      ⟨hnext, participant, harriver, hlast⟩ | hsame
    · refine Or.inl ⟨hnext, ?_, participant, harriver, hlast⟩
      rw [error?_of_arriver? harriver, refusal?_eq_none_iff]
      exact hlast.1
    · exact Or.inr hsame
  · intro operation participant harriver error
    rw [error?_of_arriver? harriver]
    exact refusal?_eq_some
  · exact fun _ => error?_register_eq_some
  · intro operation error herror
    exact perform_of_idle (idle_of_error? herror)
  · intro participant hok hhanded
    exact Nat.ne_of_gt (handedOut_iff.mp hhanded) (register_eq_ok.mp hok).2
  · intro participant hleft rest operation harriver
    have hnone : (after (operations ++ rest)).standing participant = none := by
      rw [<- Option.not_isSome_iff_eq_none, Barrier.registered_iff]
      exact fun hboth => hboth.2 (hleft.append rest)
    have herror := error?_of_standing_none harriver hnone
    exact ⟨herror, perform_of_idle (idle_of_error? herror)⟩
  · intro hclosed rest
    rcases closed_after_append hclosed rest with ⟨hstill, hphase⟩
    refine ⟨hstill, hphase, ?_, ?_⟩
    · rw [<- hphase]
      exact error?_register_eq_some.mpr ⟨rfl, hstill⟩
    · intro operation participant harriver
      exact error?_of_standing_none harriver
        ((sound_after (operations ++ rest)).standing_of_closed hstill)

end Barrier

end BrokerProbe
