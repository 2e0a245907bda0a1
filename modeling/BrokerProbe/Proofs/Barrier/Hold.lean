import BrokerProbe.Proofs.Barrier.Invariant
/-!
# What a participant holds

Seen from one participant a barrier is simple: the participant is needed for the
running phase, or it has arrived and not come back, or it has left.  Its own
operations move it from one to the next; the operations of others cannot, since
no phase ends without it.
-/

namespace BrokerProbe

namespace Barrier

inductive Hold where
  /-- It is registered, and absent in this phase, the running one. -/
  | working (phase : Nat)
  /-- It arrived in this phase and has not come back. -/
  | waiting (phase : Nat)
  /-- It left in this phase. -/
  | gone (phase : Nat)
  deriving DecidableEq, Repr

def Hold.At (barrier : Barrier) (participant : Nat) : Hold -> Prop
  | working phase => barrier.standing participant = some false ∧ barrier.phase = phase
  | waiting phase =>
      (exists sleeper, sleeper ∈ barrier.sleepers ∧ sleeper.participant = participant ∧
        sleeper.phase = phase) ∧
      (barrier.standing participant = some true ∧ barrier.phase = phase ∨
        barrier.standing participant = some false ∧ barrier.phase = phase + 1)
  | gone phase =>
      barrier.standing participant = none ∧ phase <= barrier.phase ∧
        (barrier.seats = [] -> phase < barrier.phase)

def Operation.Spares (barrier : Barrier) (participant : Nat) : Operation -> Prop
  | register => participant ≠ barrier.nextParticipant
  | leave other => participant ≠ other
  | arrive other => participant ≠ other
  | resume other _ => participant ≠ other

def Operation.caller? : Operation -> Option Nat
  | register => none
  | leave participant => some participant
  | arrive participant => some participant
  | resume participant _ => some participant

variable {barrier next : Barrier} {operation : Operation} {participant : Nat} {hold : Hold}

theorem Operation.spares_of_caller? {caller : Nat} (h : operation.caller? = some caller)
    (hne : participant ≠ caller) (barrier : Barrier) : operation.Spares barrier participant := by
  cases operation with
  | register => cases h
  | leave other =>
      cases h
      exact hne
  | arrive other =>
      cases h
      exact hne
  | resume other phase =>
      cases h
      exact hne

/-!
# The operations of others
-/

theorem exists_sleeper_effect (heffect : Effect barrier operation next)
    (hspares : operation.Spares barrier participant) {phase : Nat}
    (h : exists sleeper, sleeper ∈ barrier.sleepers ∧ sleeper.participant = participant ∧
      sleeper.phase = phase) :
    exists sleeper, sleeper ∈ next.sleepers ∧ sleeper.participant = participant ∧
      sleeper.phase = phase := by
  rcases h with ⟨sleeper, hmem, hsame, hphase⟩
  have hnotified : { sleeper with notified := true } ∈
      barrier.sleepers.map fun sleeper => { sleeper with notified := true } :=
    List.mem_map_of_mem hmem
  cases heffect with
  | nothing => exact ⟨sleeper, hmem, hsame, hphase⟩
  | enlisted => exact ⟨sleeper, hmem, hsame, hphase⟩
  | left => exact ⟨sleeper, hmem, hsame, hphase⟩
  | leftLast => exact ⟨_, hnotified, hsame, hphase⟩
  | slept => exact ⟨sleeper, List.mem_append_left _ hmem, hsame, hphase⟩
  | arrivedLast => exact ⟨_, hnotified, hsame, hphase⟩
  | @roused other =>
      have hne : sleeper ≠ other := by
        intro heq
        exact hspares (by rw [<- hsame, heq])
      exact ⟨sleeper, List.mem_filter.mpr ⟨hmem, by simpa using hne⟩, hsame, hphase⟩

theorem standing_effect (heffect : Effect barrier operation next)
    (hspares : operation.Spares barrier participant) :
    next.standing participant = barrier.standing participant ∧ next.phase = barrier.phase ∨
      barrier.standing participant ≠ some false ∧
        next.standing participant = (barrier.standing participant).map (fun _ => false) ∧
        next.phase = barrier.phase + 1 := by
  cases heffect with
  | nothing => exact Or.inl ⟨rfl, rfl⟩
  | enlisted => exact Or.inl ⟨standing_enlist hspares, rfl⟩
  | left => exact Or.inl ⟨by rw [standing_vacate, if_neg hspares], rfl⟩
  | @leftLast other _ hcomplete =>
      have hsame : (barrier.vacate other).standing participant =
          barrier.standing participant := by
        rw [standing_vacate, if_neg hspares]
      refine Or.inr ⟨?_, by rw [standing_nextPhase, hsame], rfl⟩
      intro habsent
      rw [<- hsame] at habsent
      rw [not_complete_of_standing habsent] at hcomplete
      cases hcomplete
  | slept => exact Or.inl ⟨by rw [standing_lull, standing_mark, if_neg hspares], rfl⟩
  | @arrivedLast other _ hcomplete =>
      have hsame : (barrier.mark other).standing participant =
          barrier.standing participant := by
        rw [standing_mark, if_neg hspares]
      refine Or.inr ⟨?_, by rw [standing_nextPhase, hsame], rfl⟩
      intro habsent
      rw [<- hsame] at habsent
      rw [not_complete_of_standing habsent] at hcomplete
      cases hcomplete
  | roused => exact Or.inl ⟨rfl, rfl⟩

theorem seats_ne_nil_effect (heffect : Effect barrier operation next)
    (hphase : next.phase = barrier.phase) (hne : barrier.seats ≠ []) : next.seats ≠ [] := by
  cases heffect with
  | nothing => exact hne
  | enlisted => exact List.append_ne_nil_of_right_ne_nil _ (List.cons_ne_nil _ _)
  | left _ hcomplete =>
      rcases exists_absent_of_not_complete hcomplete with ⟨seat, hseat, _⟩
      exact List.ne_nil_of_mem hseat
  | leftLast => exact absurd hphase (Nat.succ_ne_self _)
  | slept _ hcomplete =>
      rcases exists_absent_of_not_complete hcomplete with ⟨seat, hseat, _⟩
      exact List.ne_nil_of_mem hseat
  | arrivedLast => exact absurd hphase (Nat.succ_ne_self _)
  | roused => exact hne

theorem Hold.At.effect (h : hold.At barrier participant)
    (heffect : Effect barrier operation next)
    (hspares : operation.Spares barrier participant) : hold.At next participant := by
  have hstanding := standing_effect heffect hspares
  cases hold with
  | working phase =>
      rcases h with ⟨habsent, hphase⟩
      rcases hstanding with ⟨hsame, hsamePhase⟩ | ⟨hne, _, _⟩
      · exact ⟨hsame.trans habsent, hsamePhase.trans hphase⟩
      · exact absurd habsent hne
  | waiting phase =>
      rcases h with ⟨hsleeper, hcase⟩
      refine ⟨exists_sleeper_effect heffect hspares hsleeper, ?_⟩
      rcases hstanding with ⟨hsame, hsamePhase⟩ | ⟨hne, hmap, hnextPhase⟩
      · rw [hsame, hsamePhase]
        exact hcase
      · rcases hcase with ⟨harrived, hphase⟩ | ⟨habsent, _⟩
        · exact Or.inr ⟨by rw [hmap, harrived, Option.map_some], by rw [hnextPhase, hphase]⟩
        · exact absurd habsent hne
  | gone phase =>
      rcases h with ⟨hnone, hle, hlt⟩
      rcases hstanding with ⟨hsame, hsamePhase⟩ | ⟨_, hmap, hnextPhase⟩
      · refine ⟨hsame.trans hnone, hsamePhase ▸ hle, ?_⟩
        intro hnil
        by_cases hempty : barrier.seats = []
        · exact hsamePhase ▸ hlt hempty
        · exact absurd hnil (seats_ne_nil_effect heffect hsamePhase hempty)
      · have hlt : phase < next.phase := hnextPhase ▸ Nat.lt_succ_of_le hle
        exact ⟨by rw [hmap, hnone, Option.map_none], Nat.le_of_lt hlt, fun _ => hlt⟩

/-!
# The operations of the participant
-/

theorem Hold.At.leave {phase : Nat} (h : (Hold.working phase).At barrier participant) :
    (barrier.leave participant).1 = .ok phase ∧
      (Hold.gone phase).At (barrier.leave participant).2 participant := by
  rcases h with ⟨habsent, hphase⟩
  rw [leave_of_standing habsent, <- hphase]
  refine ⟨rfl, ?_⟩
  have hnone : (barrier.vacate participant).standing participant = none := by
    rw [standing_vacate, if_pos rfl]
  cases hcomplete : (barrier.vacate participant).complete with
  | true =>
      rw [settle_of_complete hcomplete]
      have hlt : barrier.phase < (barrier.vacate participant).nextPhase.phase :=
        Nat.lt_succ_self _
      refine ⟨?_, Nat.le_of_lt hlt, fun _ => hlt⟩
      rw [standing_nextPhase, hnone, Option.map_none]
  | false =>
      rw [settle_of_not_complete hcomplete]
      refine ⟨hnone, Nat.le_refl _, ?_⟩
      intro hnil
      rcases exists_absent_of_not_complete hcomplete with ⟨seat, hseat, _⟩
      exact absurd hnil (List.ne_nil_of_mem hseat)

theorem Hold.At.arrive {phase : Nat} (h : (Hold.working phase).At barrier participant) :
    (barrier.arrive participant).1 = .ok (.advanced (phase + 1)) ∧
        (Hold.working (phase + 1)).At (barrier.arrive participant).2 participant ∨
      (barrier.arrive participant).1 = .ok .asleep ∧
        (Hold.waiting phase).At (barrier.arrive participant).2 participant := by
  rcases h with ⟨habsent, hphase⟩
  have harrived : (barrier.mark participant).standing participant = some true := by
    rw [standing_mark, if_pos rfl, habsent, Option.map_some]
  rw [<- hphase]
  cases hcomplete : (barrier.mark participant).complete with
  | true =>
      rw [arrive_of_complete habsent hcomplete]
      refine Or.inl ⟨rfl, ?_, rfl⟩
      rw [standing_nextPhase, harrived, Option.map_some]
  | false =>
      rw [arrive_of_not_complete habsent hcomplete]
      refine Or.inr ⟨rfl, ?_, Or.inl ⟨harrived, rfl⟩⟩
      exact ⟨_, List.mem_append_right _ (List.mem_singleton_self _), rfl, rfl⟩

theorem Hold.At.resume {phase : Nat} (h : (Hold.waiting phase).At barrier participant)
    {resumed : Nat × Barrier} (hresumed : barrier.resume? participant phase = some resumed) :
    resumed.1 = phase + 1 ∧ (Hold.working (phase + 1)).At resumed.2 participant := by
  rcases resume?_eq_some hresumed with ⟨sleeper, _, _, hphase, _, hne, heq⟩
  rw [heq]
  rcases h.2 with ⟨_, hrunning⟩ | ⟨habsent, hover⟩
  · exact absurd (hphase.trans hrunning.symm) hne
  · exact ⟨hover, habsent, hover⟩

theorem Sound.resume?_isSome (hsound : Sound barrier) {phase : Nat}
    (h : (Hold.waiting phase).At barrier participant)
    (habsent : barrier.standing participant = some false) :
    (barrier.resume? participant phase).isSome = true := by
  rcases h with ⟨⟨sleeper, hmem, hsame, hphase⟩, hcase⟩
  have hover : barrier.phase = phase + 1 := by
    rcases hcase with ⟨harrived, _⟩ | ⟨_, hover⟩
    · rw [habsent] at harrived
      cases harrived
    · exact hover
  cases hfind : barrier.sleeper? participant phase with
  | none =>
      have hnone := List.find?_eq_none.mp hfind sleeper hmem
      simp [hsame, hphase] at hnone
  | some found =>
      have hfoundPhase : found.phase = phase := by
        have hfound := List.find?_some hfind
        simp only [Bool.and_eq_true, beq_iff_eq] at hfound
        exact hfound.2
      have hlt : found.phase < barrier.phase := by omega
      have hnotified := (hsound.notified_iff found (List.mem_of_find?_eq_some hfind)).mpr hlt
      have hcan : barrier.canResume found = true := by
        simp [canResume, hnotified, Nat.ne_of_lt hlt]
      simp [resume?, hfind, hcan]

theorem Sound.hold_enlist (hsound : Sound barrier) :
    (Hold.working barrier.phase).At barrier.enlist barrier.nextParticipant := by
  refine ⟨?_, rfl⟩
  have hnone : barrier.seats.find? (fun seat => seat.participant == barrier.nextParticipant) =
      none := by
    apply List.find?_eq_none.mpr
    intro seat hseat
    have hlt := hsound.participant_lt seat hseat
    simpa using Nat.ne_of_lt hlt
  simp [standing, seat?, Barrier.enlist, List.find?_append, hnone]

/-!
# What an operation does to the barrier as a whole
-/

theorem isSome_standing_effect (heffect : Effect barrier operation next)
    (h : (next.standing participant).isSome = true) :
    (barrier.standing participant).isSome = true ∨
      operation = .register ∧ participant = barrier.nextParticipant := by
  cases heffect with
  | nothing => exact Or.inl h
  | enlisted =>
      by_cases heq : participant = barrier.nextParticipant
      · exact Or.inr ⟨rfl, heq⟩
      · exact Or.inl (by rwa [standing_enlist heq] at h)
  | @left other =>
      rw [standing_vacate] at h
      by_cases heq : participant = other
      · simp [heq] at h
      · exact Or.inl (by rwa [if_neg heq] at h)
  | @leftLast other =>
      rw [standing_nextPhase, Option.isSome_map, standing_vacate] at h
      by_cases heq : participant = other
      · simp [heq] at h
      · exact Or.inl (by rwa [if_neg heq] at h)
  | @slept other =>
      rw [standing_lull, standing_mark] at h
      by_cases heq : participant = other
      · exact Or.inl (by rwa [if_pos heq, Option.isSome_map] at h)
      · exact Or.inl (by rwa [if_neg heq] at h)
  | @arrivedLast other =>
      rw [standing_nextPhase, Option.isSome_map, standing_mark] at h
      by_cases heq : participant = other
      · exact Or.inl (by rwa [if_pos heq, Option.isSome_map] at h)
      · exact Or.inl (by rwa [if_neg heq] at h)
  | roused => exact Or.inl h

theorem phase_effect (heffect : Effect barrier operation next) :
    next.phase = barrier.phase ∨ next.phase = barrier.phase + 1 ∧ barrier.seats ≠ [] := by
  cases heffect with
  | nothing => exact Or.inl rfl
  | enlisted => exact Or.inl rfl
  | left => exact Or.inl rfl
  | leftLast hstanding =>
      exact Or.inr ⟨rfl, List.ne_nil_of_mem (exists_seat_of_standing hstanding)⟩
  | slept => exact Or.inl rfl
  | arrivedLast hstanding =>
      exact Or.inr ⟨rfl, List.ne_nil_of_mem (exists_seat_of_standing hstanding)⟩
  | roused => exact Or.inl rfl

theorem nextParticipant_le_effect (heffect : Effect barrier operation next) :
    barrier.nextParticipant <= next.nextParticipant := by
  cases heffect with
  | nothing => exact Nat.le_refl _
  | enlisted => exact Nat.le_succ _
  | left => exact Nat.le_refl _
  | leftLast => exact Nat.le_refl _
  | slept => exact Nat.le_refl _
  | arrivedLast => exact Nat.le_refl _
  | roused => exact Nat.le_refl _

end Barrier

end BrokerProbe
