import BrokerProbe.Proofs.Barrier.Operation
import Mathlib.Data.List.Induction
import Mathlib.Data.List.Perm.Basic
/-!
# The invariant of a barrier

What holds of a barrier between any two operations, whoever calls them and with
whatever numbers.  The clauses need each other: that nobody who is asleep waits
for a phase that is over rests on the phase ending as soon as all have arrived,
and that a closed barrier is empty rests on who may still be registered.
-/

namespace BrokerProbe

namespace Barrier

def waiting (barrier : Barrier) : List Nat :=
  (barrier.sleepers.filter fun sleeper => sleeper.phase == barrier.phase).map
    Sleeper.participant

def arrivals (barrier : Barrier) : List Nat :=
  (barrier.seats.filter Seat.arrived).map Seat.participant

/-- What holds of a barrier at any time, also in the middle of an operation. -/
structure Tidy (barrier : Barrier) : Prop where
  participant_lt : forall seat, seat ∈ barrier.seats ->
    seat.participant < barrier.nextParticipant
  nodup : (barrier.seats.map Seat.participant).Nodup
  sleeper_le : forall sleeper, sleeper ∈ barrier.sleepers -> sleeper.phase <= barrier.phase
  notified_iff : forall sleeper, sleeper ∈ barrier.sleepers ->
    (sleeper.notified = true <-> sleeper.phase < barrier.phase)

/-- What holds of a barrier between two operations. -/
structure Sound (barrier : Barrier) : Prop extends Tidy barrier where
  exists_absent : barrier.seats ≠ [] -> exists seat, seat ∈ barrier.seats ∧ seat.arrived = false
  terminated_iff : barrier.terminated = true <->
    barrier.seats = [] ∧ 0 < barrier.nextParticipant
  phase_pos : barrier.terminated = true -> 0 < barrier.phase
  waiting_perm : barrier.waiting.Perm barrier.arrivals

@[simp] theorem length_arrivals (barrier : Barrier) :
    barrier.arrivals.length = barrier.arrivedCount := by
  simp [arrivals, arrivedCount, List.countP_eq_length_filter]

theorem sound_new : Sound new where
  participant_lt := by simp [new]
  nodup := by simp [new]
  sleeper_le := by simp [new]
  notified_iff := by simp [new]
  exists_absent := by simp [new]
  terminated_iff := by simp [new]
  phase_pos := by simp [new]
  waiting_perm := by simp [new, waiting, arrivals]

/-!
# The parts of an operation
-/

theorem Tidy.vacate {barrier : Barrier} (h : Tidy barrier) (participant : Nat) :
    Tidy (barrier.vacate participant) where
  participant_lt := by
    intro seat hseat
    exact h.participant_lt seat (List.mem_of_mem_filter hseat)
  nodup := h.nodup.sublist (List.filter_sublist.map _)
  sleeper_le := h.sleeper_le
  notified_iff := h.notified_iff

theorem map_participant_mark (barrier : Barrier) (participant : Nat) :
    (barrier.mark participant).seats.map Seat.participant =
      barrier.seats.map Seat.participant := by
  simp only [mark, List.map_map]
  apply List.map_congr_left
  intro seat _
  simp only [Function.comp_apply]
  split <;> rfl

theorem Tidy.mark {barrier : Barrier} (h : Tidy barrier) (participant : Nat) :
    Tidy (barrier.mark participant) where
  participant_lt := by
    intro seat hseat
    have hnumber : seat.participant ∈ barrier.seats.map Seat.participant := by
      rw [<- map_participant_mark barrier participant]
      exact List.mem_map_of_mem hseat
    rcases List.mem_map.mp hnumber with ⟨old, hold, heq⟩
    rw [<- heq]
    exact h.participant_lt old hold
  nodup := by
    rw [map_participant_mark]
    exact h.nodup
  sleeper_le := h.sleeper_le
  notified_iff := h.notified_iff

/-!
# Who has arrived
-/

theorem Tidy.mem_arrivals {barrier : Barrier} (h : Tidy barrier) {participant : Nat} :
    participant ∈ barrier.arrivals <-> barrier.standing participant = some true := by
  constructor
  · intro hmem
    rcases List.mem_map.mp hmem with ⟨seat, hseat, heq⟩
    rcases List.mem_filter.mp hseat with ⟨hseats, harrived⟩
    rw [<- heq, standing_of_mem h.nodup hseats, harrived]
  · intro hstanding
    have hseat := exists_seat_of_standing hstanding
    exact List.mem_map.mpr ⟨_, List.mem_filter.mpr ⟨hseat, rfl⟩, rfl⟩

theorem Tidy.nodup_arrivals {barrier : Barrier} (h : Tidy barrier) :
    barrier.arrivals.Nodup :=
  h.nodup.sublist (List.filter_sublist.map _)

theorem Tidy.arrivals_vacate {barrier : Barrier} (h : Tidy barrier) {participant : Nat}
    (hstanding : barrier.standing participant = some false) :
    (barrier.vacate participant).arrivals.Perm barrier.arrivals := by
  have hvacated := h.vacate participant
  apply (List.perm_ext_iff_of_nodup hvacated.nodup_arrivals h.nodup_arrivals).mpr
  intro other
  rw [hvacated.mem_arrivals, h.mem_arrivals, standing_vacate]
  by_cases heq : other = participant
  · simp [heq, hstanding]
  · rw [if_neg heq]

theorem Tidy.arrivals_mark {barrier : Barrier} (h : Tidy barrier) {participant : Nat}
    (hstanding : barrier.standing participant = some false) :
    (barrier.mark participant).arrivals.Perm (participant :: barrier.arrivals) := by
  have hmarked := h.mark participant
  have hfresh : participant ∉ barrier.arrivals := by
    intro hmem
    rw [h.mem_arrivals, hstanding] at hmem
    cases hmem
  apply (List.perm_ext_iff_of_nodup hmarked.nodup_arrivals
    (List.nodup_cons.mpr ⟨hfresh, h.nodup_arrivals⟩)).mpr
  intro other
  rw [hmarked.mem_arrivals, List.mem_cons, h.mem_arrivals, standing_mark]
  by_cases heq : other = participant
  · simp [heq, hstanding]
  · simp [heq]

/-!
# The end of a phase
-/

theorem Tidy.nextPhase {barrier : Barrier} (h : Tidy barrier) : Tidy barrier.nextPhase where
  participant_lt := by
    intro seat hseat
    rcases List.mem_map.mp hseat with ⟨old, hold, heq⟩
    rw [<- heq]
    exact h.participant_lt old hold
  nodup := by
    have hsame : Seat.participant ∘ (fun seat : Seat => { seat with arrived := false }) =
        Seat.participant := rfl
    simpa [Barrier.nextPhase, hsame] using h.nodup
  sleeper_le := by
    intro sleeper hsleeper
    rcases List.mem_map.mp hsleeper with ⟨old, hold, heq⟩
    rw [<- heq]
    exact Nat.le_succ_of_le (h.sleeper_le old hold)
  notified_iff := by
    intro sleeper hsleeper
    rcases List.mem_map.mp hsleeper with ⟨old, hold, heq⟩
    rw [<- heq]
    simpa [Barrier.nextPhase] using Nat.lt_succ_of_le (h.sleeper_le old hold)

theorem Tidy.waiting_nextPhase {barrier : Barrier} (h : Tidy barrier) :
    barrier.nextPhase.waiting = [] := by
  simp only [waiting, List.map_eq_nil_iff, List.filter_eq_nil_iff]
  intro sleeper hsleeper
  rcases List.mem_map.mp hsleeper with ⟨old, hold, heq⟩
  have hle := h.sleeper_le old hold
  have hne : old.phase ≠ barrier.phase + 1 := by omega
  rw [<- heq]
  simpa [Barrier.nextPhase] using hne

theorem arrivals_nextPhase (barrier : Barrier) : barrier.nextPhase.arrivals = [] := by
  simp only [arrivals, List.map_eq_nil_iff, List.filter_eq_nil_iff]
  intro seat hseat
  rcases List.mem_map.mp hseat with ⟨old, _, heq⟩
  simp [<- heq]

theorem Tidy.sound_nextPhase {barrier : Barrier} (h : Tidy barrier)
    (hopen : barrier.terminated = false) (hused : 0 < barrier.nextParticipant) :
    Sound barrier.nextPhase where
  toTidy := h.nextPhase
  exists_absent := by
    intro hne
    rcases List.exists_mem_of_ne_nil _ hne with ⟨seat, hseat⟩
    rcases List.mem_map.mp hseat with ⟨old, _, heq⟩
    exact ⟨seat, hseat, by rw [<- heq]⟩
  terminated_iff := by
    simp [Barrier.nextPhase, hopen, hused]
  phase_pos := by
    intro _
    exact Nat.succ_pos _
  waiting_perm := by
    rw [h.waiting_nextPhase, arrivals_nextPhase]

/-!
# One operation
-/

theorem Sound.open_of_standing {barrier : Barrier} (h : Sound barrier) {participant : Nat}
    {arrived : Bool} (hstanding : barrier.standing participant = some arrived) :
    barrier.terminated = false ∧ 0 < barrier.nextParticipant := by
  have hseat := exists_seat_of_standing hstanding
  constructor
  · cases ht : barrier.terminated with
    | false => rfl
    | true =>
        have hnil := (h.terminated_iff.mp ht).1
        rw [hnil] at hseat
        cases hseat
  · exact Nat.zero_lt_of_lt (h.participant_lt _ hseat)

theorem Sound.lt_of_registered {barrier : Barrier} (h : Sound barrier) {participant : Nat}
    (hsome : (barrier.standing participant).isSome = true) :
    participant < barrier.nextParticipant := by
  rcases Option.isSome_iff_exists.mp hsome with ⟨arrived, hstanding⟩
  exact h.participant_lt _ (exists_seat_of_standing hstanding)

theorem exists_absent_of_not_complete {barrier : Barrier} (h : barrier.complete = false) :
    exists seat, seat ∈ barrier.seats ∧ seat.arrived = false := by
  simpa [complete] using h

theorem Sound.enlist {barrier : Barrier} (h : Sound barrier)
    (hopen : barrier.terminated = false) : Sound barrier.enlist where
  participant_lt := by
    intro seat hseat
    rcases List.mem_append.mp hseat with hold | hnew
    · exact Nat.lt_succ_of_lt (h.participant_lt seat hold)
    · rw [List.mem_singleton.mp hnew]
      exact Nat.lt_succ_self _
  nodup := by
    simp only [Barrier.enlist, List.map_append, List.map_cons, List.map_nil]
    apply List.Nodup.append h.nodup (List.nodup_singleton _)
    intro number hold hnew
    rcases List.mem_map.mp hold with ⟨seat, hseat, heq⟩
    have hlt := h.participant_lt seat hseat
    rw [heq, List.mem_singleton.mp hnew] at hlt
    exact Nat.lt_irrefl _ hlt
  sleeper_le := h.sleeper_le
  notified_iff := h.notified_iff
  exists_absent := by
    intro _
    exact ⟨_, List.mem_append_right _ (List.mem_singleton_self _), rfl⟩
  terminated_iff := by
    simp [Barrier.enlist, hopen]
  phase_pos := h.phase_pos
  waiting_perm := by
    have hsame : barrier.enlist.arrivals = barrier.arrivals := by
      simp [arrivals, Barrier.enlist]
    rw [hsame]
    exact h.waiting_perm

theorem Sound.vacate {barrier : Barrier} (h : Sound barrier) {participant : Nat}
    (hstanding : barrier.standing participant = some false)
    (hcomplete : (barrier.vacate participant).complete = false) :
    Sound (barrier.vacate participant) where
  toTidy := h.toTidy.vacate participant
  exists_absent := by
    intro _
    exact exists_absent_of_not_complete hcomplete
  terminated_iff := by
    rcases exists_absent_of_not_complete hcomplete with ⟨seat, hseat, _⟩
    have hopen : (barrier.vacate participant).terminated = false :=
      (h.open_of_standing hstanding).1
    simp [hopen, List.ne_nil_of_mem hseat]
  phase_pos := h.phase_pos
  waiting_perm := h.waiting_perm.trans (h.toTidy.arrivals_vacate hstanding).symm

theorem Sound.lull_mark {barrier : Barrier} (h : Sound barrier) {participant : Nat}
    (hstanding : barrier.standing participant = some false)
    (hcomplete : (barrier.mark participant).complete = false) :
    Sound ((barrier.mark participant).lull participant) where
  participant_lt := (h.toTidy.mark participant).participant_lt
  nodup := (h.toTidy.mark participant).nodup
  sleeper_le := by
    intro sleeper hsleeper
    rcases List.mem_append.mp hsleeper with hold | hnew
    · exact h.sleeper_le sleeper hold
    · rw [List.mem_singleton.mp hnew]
      exact Nat.le_refl _
  notified_iff := by
    intro sleeper hsleeper
    rcases List.mem_append.mp hsleeper with hold | hnew
    · exact h.notified_iff sleeper hold
    · rw [List.mem_singleton.mp hnew]
      simp [lull]
  exists_absent := by
    intro _
    exact exists_absent_of_not_complete hcomplete
  terminated_iff := by
    rcases exists_absent_of_not_complete hcomplete with ⟨seat, hseat, _⟩
    have hopen : ((barrier.mark participant).lull participant).terminated = false :=
      (h.open_of_standing hstanding).1
    have hne : ((barrier.mark participant).lull participant).seats ≠ [] :=
      List.ne_nil_of_mem hseat
    simp [hopen, hne]
  phase_pos := h.phase_pos
  waiting_perm := by
    have hwaiting : ((barrier.mark participant).lull participant).waiting =
        barrier.waiting ++ [participant] := by
      simp [waiting, lull, Barrier.mark]
    have harrivals := h.toTidy.arrivals_mark hstanding
    rw [hwaiting]
    exact (List.perm_append_singleton participant barrier.waiting).trans
      ((h.waiting_perm.cons participant).trans harrivals.symm)

theorem Sound.rouse {barrier : Barrier} (h : Sound barrier) {sleeper : Sleeper}
    (hphase : sleeper.phase ≠ barrier.phase) : Sound (barrier.rouse sleeper) where
  participant_lt := h.participant_lt
  nodup := h.nodup
  sleeper_le := by
    intro other hother
    exact h.sleeper_le other (List.mem_of_mem_filter hother)
  notified_iff := by
    intro other hother
    exact h.notified_iff other (List.mem_of_mem_filter hother)
  exists_absent := h.exists_absent
  terminated_iff := h.terminated_iff
  phase_pos := h.phase_pos
  waiting_perm := by
    have hsame : (barrier.rouse sleeper).waiting = barrier.waiting := by
      simp only [waiting, Barrier.rouse, List.filter_filter]
      congr 1
      apply List.filter_congr
      intro other _
      by_cases heq : other = sleeper
      · simp [heq, hphase]
      · simp [heq]
    rw [hsame]
    exact h.waiting_perm

theorem Sound.effect {barrier next : Barrier} {operation : Operation} (h : Sound barrier)
    (heffect : Effect barrier operation next) : Sound next := by
  cases heffect with
  | nothing => exact h
  | enlisted hopen => exact h.enlist hopen
  | left hstanding hcomplete => exact h.vacate hstanding hcomplete
  | leftLast hstanding _ =>
      have hopen := h.open_of_standing hstanding
      exact (h.toTidy.vacate _).sound_nextPhase hopen.1 hopen.2
  | slept hstanding hcomplete => exact h.lull_mark hstanding hcomplete
  | arrivedLast hstanding _ =>
      have hopen := h.open_of_standing hstanding
      exact (h.toTidy.mark _).sound_nextPhase hopen.1 hopen.2
  | roused _ _ hphase => exact h.rouse hphase

theorem Sound.used_effect {barrier next : Barrier} {operation : Operation} (h : Sound barrier)
    (heffect : Effect barrier operation next) :
    0 < next.nextParticipant <-> 0 < barrier.nextParticipant ∨ operation = .register := by
  cases heffect with
  | nothing hidle =>
      constructor
      · exact Or.inl
      · intro hused
        cases hused with
        | inl hpos => exact hpos
        | inr heq =>
            subst heq
            exact (h.terminated_iff.mp hidle).2
  | enlisted => simp [Barrier.enlist]
  | left => simp [Barrier.vacate]
  | leftLast => simp [Barrier.nextPhase, Barrier.vacate]
  | slept => simp [lull, Barrier.mark]
  | arrivedLast => simp [Barrier.nextPhase, Barrier.mark]
  | roused => simp [Barrier.rouse]

theorem Sound.arrived_lt {barrier : Barrier} (h : Sound barrier) (hne : barrier.seats ≠ []) :
    barrier.arrivedCount < barrier.seats.length := by
  rcases h.exists_absent hne with ⟨seat, hseat, habsent⟩
  have hle : barrier.arrivedCount <= barrier.seats.length := List.countP_le_length
  have hne : barrier.arrivedCount ≠ barrier.seats.length := by
    intro heq
    have harrived := List.countP_eq_length.mp heq seat hseat
    rw [habsent] at harrived
    cases harrived
  exact Nat.lt_of_le_of_ne hle hne

/-!
# Runs
-/

theorem after_append (operations : List Operation) (operation : Operation) :
    after (operations ++ [operation]) = (after operations).perform operation := by
  simp [after]

theorem sound_after (operations : List Operation) : Sound (after operations) := by
  induction operations using List.reverseRecOn with
  | nil => exact sound_new
  | append_singleton operations operation ih =>
      rw [after_append]
      exact ih.effect (effect_perform _ operation)

theorem used_after (operations : List Operation) :
    0 < (after operations).nextParticipant <-> Operation.register ∈ operations := by
  induction operations using List.reverseRecOn with
  | nil => simp [after, new]
  | append_singleton operations operation ih =>
      rw [after_append, (sound_after operations).used_effect (effect_perform _ operation), ih]
      simp [eq_comm]

/--
Participants are registered under numbers that were handed out, each once.  As
long as any are registered one of them is absent.  The barrier is closed exactly
when it was used and nobody is left, and then a phase has ended and nobody
counts as arrived.  Those asleep in the running phase are those that arrived.
-/
theorem invariant_after (operations : List Operation) :
    ((forall seat, seat ∈ (after operations).seats ->
        seat.participant < (after operations).nextParticipant) ∧
      ((after operations).seats.map Seat.participant).Nodup) ∧
    (0 < (after operations).census.registered ->
      (exists seat, seat ∈ (after operations).seats ∧ seat.arrived = false) ∧
      (after operations).census.arrived < (after operations).census.registered) ∧
    ((after operations).census.terminated = true <->
      (after operations).census.registered = 0 ∧ Operation.register ∈ operations) ∧
    ((after operations).census.terminated = true ->
      1 <= (after operations).census.phase ∧ (after operations).census.arrived = 0) ∧
    ((after operations).waiting.length = (after operations).census.arrived ∧
      (after operations).waiting.Perm (after operations).arrivals) := by
  have h := sound_after operations
  refine ⟨⟨h.participant_lt, h.nodup⟩, ?_, ?_, ?_, ?_, h.waiting_perm⟩
  · intro hpos
    have hne : (after operations).seats ≠ [] := List.ne_nil_of_length_pos hpos
    exact ⟨h.exists_absent hne, h.arrived_lt hne⟩
  · rw [<- used_after, census, List.length_eq_zero_iff]
    exact h.terminated_iff
  · intro hterminated
    have hnil := (h.terminated_iff.mp hterminated).1
    exact ⟨h.phase_pos hterminated, by simp [census, arrivedCount, hnil]⟩
  · rw [h.waiting_perm.length_eq]
    exact length_arrivals _

end Barrier

end BrokerProbe
