import BrokerProbe.Proofs.Barrier.Membership
/-!
# Taking turns

A phase in which everyone absent makes one call, to stay or to leave, while those
asleep get up when they like and can.  Which call ends the phase, and so who sleeps,
depends on the order; what the phase comes to and what everyone is told does not.
-/

namespace BrokerProbe

namespace Barrier

variable {barrier next : Barrier} {operation : Operation} {schedule rest : List Operation}
variable {participant phase : Nat}

/-!
# Schedules
-/

def run (barrier : Barrier) (schedule : List Operation) : Barrier :=
  schedule.foldl perform barrier

def Operation.isCall : Operation -> Bool
  | resume _ _ => false
  | _ => true

def calls (schedule : List Operation) : List Operation :=
  schedule.filter Operation.isCall

def absentees (barrier : Barrier) : List Nat :=
  (barrier.seats.filter fun seat => !seat.arrived).map Seat.participant

/-- Whether everyone absent makes one call of a schedule, and nobody else makes any. -/
def TakesTurns (barrier : Barrier) (schedule : List Operation) : Prop :=
  ((calls schedule).map Operation.arriver?).Perm (barrier.absentees.map some)

instance (barrier : Barrier) (schedule : List Operation) :
    Decidable (barrier.TakesTurns schedule) :=
  inferInstanceAs (Decidable (List.Perm _ _))

theorem Sound.run (h : Sound barrier) (schedule : List Operation) :
    Sound (barrier.run schedule) := by
  induction schedule generalizing barrier with
  | nil => exact h
  | cons operation schedule ih => exact ih (h.effect (effect_perform barrier operation))

/-!
# Who is absent
-/

theorem Tidy.mem_absentees (h : Tidy barrier) :
    participant ∈ barrier.absentees <-> barrier.standing participant = some false := by
  constructor
  · intro hmem
    rcases List.mem_map.mp hmem with ⟨seat, hseat, heq⟩
    rcases List.mem_filter.mp hseat with ⟨hseats, habsent⟩
    rw [<- heq, standing_of_mem h.nodup hseats]
    simpa using habsent
  · intro hstanding
    have hseat := exists_seat_of_standing hstanding
    exact List.mem_map.mpr ⟨_, List.mem_filter.mpr ⟨hseat, rfl⟩, rfl⟩

theorem Tidy.nodup_absentees (h : Tidy barrier) : barrier.absentees.Nodup :=
  h.nodup.sublist (List.filter_sublist.map _)

theorem Tidy.absentees_perm (h : Tidy barrier) (hnext : Tidy next)
    (habsent : barrier.standing participant = some false)
    (harrived : next.standing participant ≠ some false)
    (hothers : forall other, other ≠ participant ->
      next.standing other = barrier.standing other) :
    barrier.absentees.Perm (participant :: next.absentees) := by
  have hfresh : participant ∉ next.absentees := by
    rwa [hnext.mem_absentees]
  apply (List.perm_ext_iff_of_nodup h.nodup_absentees
    (List.nodup_cons.mpr ⟨hfresh, hnext.nodup_absentees⟩)).mpr
  intro other
  rw [List.mem_cons, h.mem_absentees, hnext.mem_absentees]
  by_cases heq : other = participant
  · simp [heq, habsent]
  · simp [heq, hothers other heq]

theorem Tidy.absentees_vacate (h : Tidy barrier)
    (habsent : barrier.standing participant = some false) :
    barrier.absentees.Perm (participant :: (barrier.vacate participant).absentees) := by
  apply h.absentees_perm (h.vacate participant) habsent
  · simp
  · intro other hne
    simp [hne]

theorem Tidy.absentees_mark (h : Tidy barrier)
    (habsent : barrier.standing participant = some false) :
    barrier.absentees.Perm (participant :: (barrier.mark participant).absentees) := by
  apply h.absentees_perm (h.mark participant) habsent
  · simp [habsent]
  · intro other hne
    simp [hne]

theorem absentees_of_complete (h : barrier.complete = true) : barrier.absentees = [] := by
  simp only [absentees, List.map_eq_nil_iff, List.filter_eq_nil_iff]
  intro seat hseat
  simpa using List.all_eq_true.mp h seat hseat

/-!
# One operation of a schedule
-/

/-- Where a barrier stands in a phase: amid its calls, or past the last of them. -/
inductive Along (phase : Nat) (barrier : Barrier) (schedule : List Operation) : Prop where
  | amid (hphase : barrier.phase = phase) (hne : barrier.seats ≠ [])
      (hturns : barrier.TakesTurns schedule)
  | past (hphase : barrier.phase = phase + 1) (hcalls : calls schedule = [])
      (harrivals : barrier.arrivals = [])

theorem calls_cons_of_arriver? (h : operation.arriver? = some participant) :
    calls (operation :: rest) = operation :: calls rest := by
  apply List.filter_cons_of_pos
  cases operation with
  | resume => cases h
  | _ => rfl

theorem TakesTurns.of_cons (h : barrier.TakesTurns (operation :: rest))
    (harriver : operation.arriver? = some participant)
    (hperm : barrier.absentees.Perm (participant :: next.absentees)) :
    next.TakesTurns rest := by
  rw [TakesTurns, calls_cons_of_arriver? harriver, List.map_cons, harriver] at h
  exact (h.trans (hperm.map some)).cons_inv

theorem TakesTurns.calls_eq_nil (h : barrier.TakesTurns schedule)
    (hcomplete : barrier.complete = true) : calls schedule = [] := by
  rw [TakesTurns, absentees_of_complete hcomplete] at h
  exact List.map_eq_nil_iff.mp h.eq_nil

theorem Along.cases_cons (hsound : Sound barrier)
    (h : Along phase barrier (operation :: rest)) :
    (exists participant slept, operation = .resume participant slept) ∧
        Along phase barrier rest ∨
      barrier.phase = phase ∧ barrier.TakesTurns (operation :: rest) ∧
        exists participant, operation.arriver? = some participant ∧
          barrier.standing participant = some false := by
  cases hcall : operation.isCall with
  | false =>
      have hcalls : calls (operation :: rest) = calls rest :=
        List.filter_cons_of_neg (by simp [hcall])
      cases operation with
      | resume participant slept =>
          refine Or.inl ⟨⟨participant, slept, rfl⟩, ?_⟩
          cases h with
          | amid hphase hne hturns =>
              exact .amid hphase hne (by rwa [TakesTurns, hcalls] at hturns)
          | past hphase hnil harrivals => exact .past hphase (hcalls ▸ hnil) harrivals
      | _ => cases hcall
  | true =>
      have hcalls : calls (operation :: rest) = operation :: calls rest :=
        List.filter_cons_of_pos hcall
      cases h with
      | amid hphase _ hturns =>
          have hmem : operation.arriver? ∈ barrier.absentees.map some := by
            refine hturns.subset ?_
            rw [hcalls]
            exact List.mem_cons_self
          rcases List.mem_map.mp hmem with ⟨participant, habsent, heq⟩
          exact Or.inr ⟨hphase, hturns, participant, heq.symm,
            hsound.mem_absentees.mp habsent⟩
      | past _ hnil =>
          rw [hcalls] at hnil
          cases hnil

theorem Along.of_sleepers (h : Along phase barrier schedule) (sleepers : List Sleeper) :
    Along phase { barrier with sleepers } schedule := by
  cases h with
  | amid hphase hne hturns => exact .amid hphase hne hturns
  | past hphase hcalls harrivals => exact .past hphase hcalls harrivals

theorem exists_perform_resume (barrier : Barrier) (participant phase : Nat) :
    exists sleepers, barrier.perform (.resume participant phase) = { barrier with sleepers } := by
  cases h : barrier.resume? participant phase with
  | none => exact ⟨barrier.sleepers, by simp [perform, h]⟩
  | some resumed =>
      rcases resume?_eq_some h with ⟨sleeper, _, _, _, _, _, rfl⟩
      exact ⟨_, by simp only [perform, h]; rfl⟩

theorem Along.of_not_complete (hphase : barrier.phase = phase)
    (hturns : barrier.TakesTurns schedule) (hcomplete : barrier.complete = false) :
    Along phase barrier schedule := by
  rcases exists_absent_of_not_complete hcomplete with ⟨seat, hseat, _⟩
  exact .amid hphase (List.ne_nil_of_mem hseat) hturns

theorem Along.of_complete (hphase : barrier.phase = phase)
    (hturns : barrier.TakesTurns schedule) (hcomplete : barrier.complete = true) :
    Along phase barrier.nextPhase schedule :=
  .past (congrArg Nat.succ hphase) (hturns.calls_eq_nil hcomplete) (arrivals_nextPhase barrier)

theorem Along.perform (hsound : Sound barrier) (h : Along phase barrier (operation :: rest)) :
    Along phase (barrier.perform operation) rest := by
  rcases h.cases_cons hsound with
    ⟨⟨participant, slept, rfl⟩, hrest⟩ | ⟨hphase, hturns, participant, harriver, habsent⟩
  · rcases exists_perform_resume barrier participant slept with ⟨sleepers, heq⟩
    rw [heq]
    exact hrest.of_sleepers sleepers
  · cases operation with
    | register => cases harriver
    | resume => cases harriver
    | leave other =>
        cases harriver
        have hrest := hturns.of_cons rfl (hsound.absentees_vacate habsent)
        rw [Barrier.perform, leave_of_standing habsent]
        cases hcomplete : (barrier.vacate participant).complete with
        | true =>
            rw [settle_of_complete hcomplete]
            exact .of_complete hphase hrest hcomplete
        | false =>
            rw [settle_of_not_complete hcomplete]
            exact .of_not_complete hphase hrest hcomplete
    | arrive other =>
        cases harriver
        have hrest := hturns.of_cons rfl (hsound.absentees_mark habsent)
        rw [Barrier.perform]
        cases hcomplete : (barrier.mark participant).complete with
        | true =>
            rw [arrive_of_complete habsent hcomplete]
            exact .of_complete hphase hrest hcomplete
        | false =>
            rw [arrive_of_not_complete habsent hcomplete]
            have hamid : Along phase (barrier.mark participant) rest :=
              .of_not_complete hphase hrest hcomplete
            exact hamid.of_sleepers _

theorem Along.run (hsound : Sound barrier) {before : List Operation}
    (h : Along phase barrier (before ++ rest)) : Along phase (barrier.run before) rest := by
  induction before generalizing barrier with
  | nil => exact h
  | cons operation before ih =>
      exact ih (hsound.effect (effect_perform barrier operation)) (h.perform hsound)

/-!
# What a phase comes to
-/

def roster (barrier : Barrier) (schedule : List Operation) : List Seat :=
  (barrier.seats.filter fun seat => decide (.leave seat.participant ∉ schedule)).map
    fun seat => { seat with arrived := false }

@[simp] theorem roster_nextPhase (barrier : Barrier) (schedule : List Operation) :
    barrier.nextPhase.roster schedule = barrier.roster schedule := by
  simp [roster, nextPhase, List.filter_map, Function.comp_def]

@[simp] theorem roster_vacate (barrier : Barrier) (participant : Nat)
    (schedule : List Operation) :
    (barrier.vacate participant).roster schedule =
      barrier.roster (.leave participant :: schedule) := by
  simp only [roster, vacate, List.filter_filter, List.mem_cons, not_or]
  congr 2
  funext seat
  simp [Bool.and_comm, bne, Bool.beq_eq_decide_eq]

@[simp] theorem roster_mark (barrier : Barrier) (participant : Nat)
    (schedule : List Operation) :
    (barrier.mark participant).roster schedule = barrier.roster schedule := by
  simp only [roster, mark, List.filter_map, List.map_map]
  congr 1
  · funext seat
    simp only [Function.comp_apply]
    split <;> rfl
  · congr 1
    funext seat
    simp only [Function.comp_apply]
    split <;> rfl

@[simp] theorem roster_settle (barrier : Barrier) (schedule : List Operation) :
    barrier.settle.roster schedule = barrier.roster schedule := by
  cases hcomplete : barrier.complete with
  | true => rw [settle_of_complete hcomplete, roster_nextPhase]
  | false => rw [settle_of_not_complete hcomplete]

theorem Along.roster_perform (hsound : Sound barrier)
    (h : Along phase barrier (operation :: rest)) :
    (barrier.perform operation).roster rest = barrier.roster (operation :: rest) := by
  rcases h.cases_cons hsound with
    ⟨⟨participant, slept, rfl⟩, _⟩ | ⟨_, _, participant, harriver, habsent⟩
  · rcases exists_perform_resume barrier participant slept with ⟨sleepers, heq⟩
    simp [heq, roster]
  · cases operation with
    | register => cases harriver
    | resume => cases harriver
    | leave other =>
        cases harriver
        rw [Barrier.perform, leave_of_standing habsent, roster_settle, roster_vacate]
    | arrive other =>
        cases harriver
        have hcalls : barrier.roster (.arrive participant :: rest) = barrier.roster rest := by
          simp [roster]
        rw [Barrier.perform, hcalls, <- roster_mark barrier participant]
        cases hcomplete : (barrier.mark participant).complete with
        | true => rw [arrive_of_complete habsent hcomplete, roster_nextPhase]
        | false =>
            rw [arrive_of_not_complete habsent hcomplete]
            rfl

theorem Along.nextParticipant_perform (hsound : Sound barrier)
    (h : Along phase barrier (operation :: rest)) :
    (barrier.perform operation).nextParticipant = barrier.nextParticipant := by
  have hkept : operation ≠ .register := by
    rintro rfl
    rcases h.cases_cons hsound with ⟨⟨_, _, heq⟩, _⟩ | ⟨_, _, _, harriver, _⟩
    · cases heq
    · cases harriver
  generalize hnext : barrier.perform operation = next
  have heffect := effect_perform barrier operation
  rw [hnext] at heffect
  cases heffect with
  | enlisted => exact absurd rfl hkept
  | _ => rfl

def concluded (barrier : Barrier) (schedule : List Operation) : Barrier :=
  { phase := barrier.phase + 1
    seats := barrier.roster schedule
    nextParticipant := barrier.nextParticipant
    terminated := (barrier.roster schedule).isEmpty
    sleepers := [] }

theorem Along.over (hsound : Sound barrier) (h : Along phase barrier []) :
    barrier.phase = phase + 1 ∧ barrier.arrivals = [] := by
  cases h with
  | amid _ hne hturns =>
      rcases hsound.exists_absent hne with ⟨seat, hseat, habsent⟩
      have hstanding := standing_of_mem hsound.nodup hseat
      rw [habsent, <- hsound.mem_absentees] at hstanding
      have hnil : barrier.absentees = [] := List.map_eq_nil_iff.mp hturns.symm.eq_nil
      rw [hnil] at hstanding
      cases hstanding
  | past hphase _ harrivals => exact ⟨hphase, harrivals⟩

theorem roster_of_arrivals (h : barrier.arrivals = []) : barrier.roster [] = barrier.seats := by
  have hnobody : forall seat, seat ∈ barrier.seats -> seat.arrived = false := by
    simpa [arrivals] using h
  have hsame : forall seat, seat ∈ barrier.seats -> { seat with arrived := false } = seat := by
    intro seat hseat
    rw [<- hnobody seat hseat]
  simpa [roster] using List.map_congr_left hsame

theorem Along.roster_run (hsound : Sound barrier) (h : Along phase barrier schedule) :
    (barrier.run schedule).roster [] = barrier.roster schedule ∧
      (barrier.run schedule).nextParticipant = barrier.nextParticipant := by
  induction schedule generalizing barrier with
  | nil => exact ⟨rfl, rfl⟩
  | cons operation schedule ih =>
      have hrest := ih (hsound.effect (effect_perform barrier operation)) (h.perform hsound)
      rwa [h.roster_perform hsound, h.nextParticipant_perform hsound] at hrest

theorem Sound.sleepers_resumeAll (h : Sound barrier) (harrivals : barrier.arrivals = []) :
    barrier.resumeAll.2.sleepers = [] := by
  have hwaiting : barrier.waiting = [] := (harrivals ▸ h.waiting_perm).eq_nil
  simp only [resumeAll, List.partition_eq_filter_filter, List.filter_eq_nil_iff]
  intro sleeper hsleeper
  have hne : sleeper.phase ≠ barrier.phase := by
    simpa using List.filter_eq_nil_iff.mp (List.map_eq_nil_iff.mp hwaiting) sleeper hsleeper
  have hlt := Nat.lt_of_le_of_ne (h.sleeper_le sleeper hsleeper) hne
  simp [canResume, (h.notified_iff sleeper hsleeper).mpr hlt, hne]

theorem Along.concluded_run (hsound : Sound barrier) (hne : barrier.seats ≠ [])
    (hphase : barrier.phase = phase) (h : Along phase barrier schedule) :
    (barrier.run schedule).resumeAll.2 = barrier.concluded schedule := by
  have hend := hsound.run schedule
  have hover : Along phase (barrier.run schedule) [] := by
    apply Along.run hsound
    rwa [List.append_nil]
  rcases hover.over hend with ⟨hnext, harrivals⟩
  rcases h.roster_run hsound with ⟨hroster, hused⟩
  rw [roster_of_arrivals harrivals] at hroster
  have hclosed : (barrier.run schedule).terminated = (barrier.roster schedule).isEmpty := by
    rcases List.exists_mem_of_ne_nil _ hne with ⟨seat, hseat⟩
    have hpos := Nat.zero_lt_of_lt (hsound.participant_lt seat hseat)
    rw [Bool.eq_iff_iff, hend.terminated_iff, hroster, hused, List.isEmpty_iff]
    exact and_iff_left hpos
  have hasleep := hend.sleepers_resumeAll harrivals
  have hparts : (barrier.run schedule).resumeAll.2 =
      { barrier.run schedule with sleepers := (barrier.run schedule).resumeAll.2.sleepers } := rfl
  rw [hparts, hasleep, concluded, hphase, <- hnext, <- hused, <- hclosed, <- hroster]

/-!
# What everyone is told
-/

def wake? (barrier : Barrier) (participant slept : Nat) : List Operation -> Option Nat
  | [] => (barrier.resume? participant slept).map Prod.fst
  | operation :: rest =>
      let told :=
        if operation = .resume participant slept then
          (barrier.resume? participant slept).map Prod.fst
        else none
      told <|> (barrier.perform operation).wake? participant slept rest

/-- What an arrival is told in the end: at once, or when it has slept. -/
def told? (barrier : Barrier) (participant : Nat) (rest : List Operation) : Option Nat :=
  match (barrier.arrive participant).1 with
  | .ok (.advanced answer) => some answer
  | .ok .asleep =>
      (barrier.perform (.arrive participant)).wake? participant barrier.phase rest
  | .error _ => none

theorem Hold.At.of_resume (h : (Hold.waiting phase).At barrier participant) {other slept : Nat}
    (hne : Operation.resume other slept ≠ .resume participant phase) :
    (Hold.waiting phase).At (barrier.perform (.resume other slept)) participant := by
  generalize hnext : barrier.perform (.resume other slept) = next
  have heffect := effect_perform barrier (.resume other slept)
  rw [hnext] at heffect
  cases heffect with
  | nothing => exact h
  | @roused woken =>
      rcases h with ⟨⟨sleeper, hmem, hsame, hphase⟩, hcase⟩
      have hother : sleeper ≠ woken := by
        rintro rfl
        exact hne (by rw [hsame, hphase])
      exact ⟨⟨sleeper, List.mem_filter.mpr ⟨hmem, by simpa using hother⟩, hsame, hphase⟩, hcase⟩

theorem Along.hold_perform (hsound : Sound barrier)
    (h : Along phase barrier (operation :: rest))
    (hhold : (Hold.waiting phase).At barrier participant)
    (hne : operation ≠ .resume participant phase) :
    (Hold.waiting phase).At (barrier.perform operation) participant := by
  rcases h.cases_cons hsound with
    ⟨⟨other, slept, rfl⟩, _⟩ | ⟨hphase, _, other, harriver, habsent⟩
  · exact hhold.of_resume hne
  · have hother : participant ≠ other := by
      rintro rfl
      rcases hhold.2 with ⟨harrived, _⟩ | ⟨_, hover⟩
      · rw [habsent] at harrived
        cases harrived
      · omega
    have hspares : operation.Spares barrier participant := by
      cases operation with
      | register => cases harriver
      | resume => cases harriver
      | leave => cases harriver; exact hother
      | arrive => cases harriver; exact hother
    exact hhold.effect (effect_perform barrier operation) hspares

theorem Along.wake?_eq (hsound : Sound barrier) (h : Along phase barrier schedule)
    (hhold : (Hold.waiting phase).At barrier participant) :
    barrier.wake? participant phase schedule = some (phase + 1) := by
  induction schedule generalizing barrier with
  | nil =>
      have habsent : barrier.standing participant = some false := by
        rcases hhold.2 with ⟨_, hphase⟩ | ⟨habsent, _⟩
        · have hover := (h.over hsound).1
          omega
        · exact habsent
      rcases Option.isSome_iff_exists.mp (hsound.resume?_isSome hhold habsent) with
        ⟨resumed, hresumed⟩
      rw [wake?, hresumed, Option.map_some, (hhold.resume hresumed).1]
  | cons operation rest ih =>
      have hnext := hsound.effect (effect_perform barrier operation)
      rw [wake?]
      by_cases heq : operation = .resume participant phase
      · cases hresumed : barrier.resume? participant phase with
        | some resumed => simp [heq, (hhold.resume hresumed).1]
        | none =>
            have hidle : barrier.perform operation = barrier := by
              rw [heq]
              exact perform_of_idle hresumed
            have hrest := ih hnext (h.perform hsound) (hidle.symm ▸ hhold)
            simpa [heq, hresumed] using hrest
      · have hrest := ih hnext (h.perform hsound) (h.hold_perform hsound hhold heq)
        simpa [heq] using hrest

theorem Along.told?_eq (hsound : Sound barrier)
    (h : Along phase barrier (.arrive participant :: rest)) :
    barrier.told? participant rest = some (phase + 1) := by
  have hnext := hsound.effect (effect_perform barrier (.arrive participant))
  rcases h.cases_cons hsound with ⟨⟨_, _, heq⟩, _⟩ | ⟨hphase, _, _, harriver, habsent⟩
  · cases heq
  · cases harriver
    have hworking : (Hold.working phase).At barrier participant := ⟨habsent, hphase⟩
    rcases hworking.arrive with ⟨hadvanced, _⟩ | ⟨hasleep, hwaiting⟩
    · simp [told?, hadvanced]
    · simpa [told?, hasleep, hphase] using (h.perform hsound).wake?_eq hnext hwaiting

theorem Sound.hold_of_waiting (h : Sound barrier) (hmem : participant ∈ barrier.waiting) :
    (Hold.waiting barrier.phase).At barrier participant := by
  have harrived := h.mem_arrivals.mp (h.waiting_perm.subset hmem)
  rcases List.mem_map.mp hmem with ⟨sleeper, hsleeper, hsame⟩
  rcases List.mem_filter.mp hsleeper with ⟨hmem, hphase⟩
  exact ⟨⟨sleeper, hmem, hsame, by simpa using hphase⟩, Or.inl ⟨harrived, rfl⟩⟩

/-!
# Every order of a phase
-/

/--
What a schedule of a phase comes to.  Once everyone has got up, which changes
nothing but who is asleep, the barrier is the same for any order of the calls.
No call is refused; who leaves is told the phase, and who stays the next one.
-/
structure Concludes (barrier : Barrier) (schedule : List Operation) : Prop where
  concluded : (barrier.run schedule).resumeAll.2 = barrier.concluded schedule
  any_order : forall other, (calls other).Perm (calls schedule) ->
    (barrier.run other).resumeAll.2 = (barrier.run schedule).resumeAll.2
  granted : forall before operation rest, schedule = before ++ operation :: rest ->
    (barrier.run before).error? operation = none
  left : forall before participant rest, schedule = before ++ .leave participant :: rest ->
    ((barrier.run before).leave participant).1 = .ok barrier.phase
  told : forall before participant rest, schedule = before ++ .arrive participant :: rest ->
    (barrier.run before).told? participant rest = some (barrier.phase + 1)
  woken : forall participant, participant ∈ barrier.waiting ->
    barrier.wake? participant barrier.phase schedule = some (barrier.phase + 1)

theorem roster_eq_of_calls {other : List Operation} (h : (calls other).Perm (calls schedule)) :
    barrier.roster other = barrier.roster schedule := by
  have hsame : forall participant,
      Operation.leave participant ∈ other <-> .leave participant ∈ schedule := by
    intro participant
    have hmem := h.mem_iff (a := .leave participant)
    simpa [calls, Operation.isCall] using hmem
  simp only [roster, hsame]

/-- Whoever calls first in a phase, everyone is told the same and the next phase is the same. -/
theorem concludes_after (operations schedule : List Operation)
    (hne : (after operations).seats ≠ []) (hturns : (after operations).TakesTurns schedule) :
    Concludes (after operations) schedule := by
  have hsound := sound_after operations
  have halong : forall {before rest : List Operation}, schedule = before ++ rest ->
      Along (after operations).phase ((after operations).run before) rest := by
    rintro before rest rfl
    exact (Along.amid rfl hne hturns).run hsound
  constructor
  · exact (Along.amid rfl hne hturns).concluded_run hsound hne rfl
  · intro other hperm
    have hother : (after operations).TakesTurns other := (hperm.map _).trans hturns
    rw [(Along.amid rfl hne hturns).concluded_run hsound hne rfl,
      (Along.amid rfl hne hother).concluded_run hsound hne rfl, concluded, concluded,
      roster_eq_of_calls hperm]
  · intro before operation rest hsplit
    rcases (halong hsplit).cases_cons (hsound.run before) with
      ⟨⟨_, _, rfl⟩, _⟩ | ⟨_, _, participant, harriver, habsent⟩
    · rfl
    · rw [error?_of_arriver? harriver, refusal?_eq_none_iff.mpr habsent]
  · intro before participant rest hsplit
    rcases (halong hsplit).cases_cons (hsound.run before) with
      ⟨⟨_, _, heq⟩, _⟩ | ⟨hphase, _, _, harriver, habsent⟩
    · cases heq
    · cases harriver
      rw [leave_of_standing habsent, hphase]
  · intro before participant rest hsplit
    exact (halong hsplit).told?_eq (hsound.run before)
  · intro participant hmem
    exact (Along.amid rfl hne hturns).wake?_eq hsound (hsound.hold_of_waiting hmem)

def assembled : List Operation :=
  [.register, .register, .register, .register, .arrive 3]

theorem concludes_after_assembled :
    (after assembled).seats ≠ [] ∧
      (after assembled).TakesTurns [.arrive 1, .resume 3 0, .leave 0, .arrive 2, .resume 1 0] ∧
      Concludes (after assembled) [.arrive 1, .resume 3 0, .leave 0, .arrive 2, .resume 1 0] :=
  ⟨by decide, by decide, concludes_after assembled _ (by decide) (by decide)⟩

end Barrier

end BrokerProbe
