import BrokerProbe.Proofs.Barrier.Hold
/-!
# Arrivals that wait

An arrival that went to sleep is pending until it comes back.  As long as each
participant has one caller at a time, the participant is missing from no phase
between the two: so the phase it comes back to is the next one, however late it
gets up, and everybody who could get up has been told to.
-/

namespace BrokerProbe

namespace Barrier

variable {barrier next : Barrier} {operation : Operation} {operations : List Operation}
variable {participant phase : Nat}

/-!
# One caller at a time
-/

def Pending (barrier : Barrier) (participant : Nat) : Prop :=
  exists sleeper, sleeper ∈ barrier.sleepers ∧ sleeper.participant = participant

instance (barrier : Barrier) (participant : Nat) : Decidable (barrier.Pending participant) :=
  inferInstanceAs (Decidable (exists sleeper, sleeper ∈ barrier.sleepers ∧ _))

def Permits (barrier : Barrier) : Operation -> Prop
  | .register => True
  | .leave participant => ¬ barrier.Pending participant
  | .arrive participant => ¬ barrier.Pending participant
  | .resume _ _ => True

instance (barrier : Barrier) (operation : Operation) : Decidable (barrier.Permits operation) :=
  match operation with
  | .register => .isTrue trivial
  | .leave participant => inferInstanceAs (Decidable (¬ barrier.Pending participant))
  | .arrive participant => inferInstanceAs (Decidable (¬ barrier.Pending participant))
  | .resume _ _ => .isTrue trivial

def PermitsAll (barrier : Barrier) : List Operation -> Prop
  | [] => True
  | operation :: rest =>
      barrier.Permits operation ∧ (barrier.perform operation).PermitsAll rest

instance decidablePermitsAll (barrier : Barrier) :
    (operations : List Operation) -> Decidable (barrier.PermitsAll operations)
  | [] => .isTrue trivial
  | operation :: rest =>
      have := decidablePermitsAll (barrier.perform operation) rest
      inferInstanceAs (Decidable (barrier.Permits operation ∧ _))

theorem permitsAll_append (barrier : Barrier) (before after : List Operation) :
    barrier.PermitsAll (before ++ after) <->
      barrier.PermitsAll before ∧ (before.foldl perform barrier).PermitsAll after := by
  induction before generalizing barrier with
  | nil => simp [PermitsAll]
  | cons operation rest ih => simp [PermitsAll, ih, and_assoc]

/-- Whether each participant of a run has one caller at a time. -/
def OneCaller (operations : List Operation) : Prop :=
  new.PermitsAll operations

instance (operations : List Operation) : Decidable (OneCaller operations) :=
  inferInstanceAs (Decidable (new.PermitsAll operations))

theorem oneCaller_append_singleton :
    OneCaller (operations ++ [operation]) <->
      OneCaller operations ∧ (after operations).Permits operation := by
  simp [OneCaller, permitsAll_append, PermitsAll, after]

/-!
# What a pending arrival finds
-/

structure Attended (barrier : Barrier) : Prop extends Sound barrier where
  hold_at : forall sleeper, sleeper ∈ barrier.sleepers ->
    (Hold.waiting sleeper.phase).At barrier sleeper.participant
  nodup_sleepers : (barrier.sleepers.map Sleeper.participant).Nodup

theorem attended_new : Attended new where
  toSound := sound_new
  hold_at := by simp [new]
  nodup_sleepers := by simp [new]

theorem Hold.At.registered (h : (Hold.waiting phase).At barrier participant) :
    (barrier.standing participant).isSome = true := by
  rcases h.2 with ⟨harrived, _⟩ | ⟨habsent, _⟩
  · rw [harrived]
    rfl
  · rw [habsent]
    rfl

def LetsSleep (barrier : Barrier) (participant : Nat) (operation : Operation) : Prop :=
  forall asked, operation = .resume participant asked ->
    barrier.resume? participant asked = none

theorem Attended.spares (h : Attended barrier) {sleeper : Sleeper}
    (hmem : sleeper ∈ barrier.sleepers) (hpermits : barrier.Permits operation)
    (hlets : barrier.LetsSleep sleeper.participant operation) :
    operation.Spares barrier sleeper.participant ∨ barrier.Idle operation := by
  cases operation with
  | register =>
      exact Or.inl (Nat.ne_of_lt (h.lt_of_registered (h.hold_at sleeper hmem).registered))
  | leave other =>
      refine Or.inl ?_
      intro heq
      exact hpermits ⟨sleeper, hmem, heq⟩
  | arrive other =>
      refine Or.inl ?_
      intro heq
      exact hpermits ⟨sleeper, hmem, heq⟩
  | resume other asked =>
      by_cases heq : sleeper.participant = other
      · subst heq
        exact Or.inr (hlets asked rfl)
      · exact Or.inl heq

theorem Attended.origin (h : Attended barrier) {sleeper : Sleeper}
    (hmem : sleeper ∈ (barrier.perform operation).sleepers) :
    (exists old, old ∈ barrier.sleepers ∧ old.participant = sleeper.participant ∧
        old.phase = sleeper.phase ∧ barrier.LetsSleep old.participant operation) ∨
      operation = .arrive sleeper.participant ∧ sleeper.phase = barrier.phase ∧
        (barrier.arrive sleeper.participant).1 = .ok .asleep := by
  have hmapped : forall sleepers : List Sleeper,
      sleeper ∈ sleepers.map (fun old => { old with notified := true }) ->
      exists old, old ∈ sleepers ∧ old.participant = sleeper.participant ∧
        old.phase = sleeper.phase := by
    intro sleepers hmem
    rcases List.mem_map.mp hmem with ⟨old, hold, heq⟩
    exact ⟨old, hold, by rw [<- heq], by rw [<- heq]⟩
  generalize hnext : barrier.perform operation = next at hmem
  have heffect := effect_perform barrier operation
  rw [hnext] at heffect
  cases heffect with
  | nothing hidle =>
      refine Or.inl ⟨sleeper, hmem, rfl, rfl, ?_⟩
      intro asked heq
      subst heq
      exact hidle
  | enlisted => exact Or.inl ⟨sleeper, hmem, rfl, rfl, fun _ heq => nomatch heq⟩
  | left => exact Or.inl ⟨sleeper, hmem, rfl, rfl, fun _ heq => nomatch heq⟩
  | leftLast =>
      rcases hmapped _ hmem with ⟨old, hold, hsame, hphase⟩
      exact Or.inl ⟨old, hold, hsame, hphase, fun _ heq => nomatch heq⟩
  | slept hstanding hcomplete =>
      rcases List.mem_append.mp hmem with hold | hnew
      · exact Or.inl ⟨sleeper, hold, rfl, rfl, fun _ heq => nomatch heq⟩
      · rw [List.mem_singleton.mp hnew]
        exact Or.inr ⟨rfl, rfl, by rw [arrive_of_not_complete hstanding hcomplete]⟩
  | arrivedLast =>
      rcases hmapped _ hmem with ⟨old, hold, hsame, hphase⟩
      exact Or.inl ⟨old, hold, hsame, hphase, fun _ heq => nomatch heq⟩
  | @roused woken hwoken =>
      rcases List.mem_filter.mp hmem with ⟨hold, hne⟩
      refine Or.inl ⟨sleeper, hold, rfl, rfl, ?_⟩
      intro asked heq
      -- No two sleepers have one participant, so the one that is left is another's.
      have hsame : woken.participant = sleeper.participant := (Operation.resume.inj heq).1
      have heqSleeper := List.inj_on_of_nodup_map h.nodup_sleepers hold hwoken hsame.symm
      simp [heqSleeper] at hne

theorem hold_of_asleep (hasleep : (barrier.arrive participant).1 = .ok .asleep) :
    (Hold.waiting barrier.phase).At (barrier.perform (.arrive participant)) participant := by
  cases href : barrier.refusal? participant with
  | some error =>
      rw [arrive_of_refusal href] at hasleep
      cases hasleep
  | none =>
      have hworking : (Hold.working barrier.phase).At barrier participant :=
        ⟨refusal?_eq_none_iff.mp href, rfl⟩
      rcases hworking.arrive with ⟨hadvanced, _⟩ | ⟨_, hwaiting⟩
      · rw [hasleep] at hadvanced
        cases hadvanced
      · exact hwaiting

theorem Attended.hold_at_perform (h : Attended barrier) (hpermits : barrier.Permits operation)
    {sleeper : Sleeper} (hmem : sleeper ∈ (barrier.perform operation).sleepers) :
    (Hold.waiting sleeper.phase).At (barrier.perform operation) sleeper.participant := by
  rcases h.origin hmem with ⟨old, hold, hsame, hphase, hlets⟩ | ⟨heq, hphase, hasleep⟩
  · rw [<- hsame, <- hphase]
    rcases h.spares hold hpermits hlets with hspares | hidle
    · exact (h.hold_at old hold).effect (effect_perform barrier operation) hspares
    · rw [perform_of_idle hidle]
      exact h.hold_at old hold
  · rw [heq, hphase]
    exact hold_of_asleep hasleep

theorem Attended.nodup_perform (h : Attended barrier) (hpermits : barrier.Permits operation) :
    ((barrier.perform operation).sleepers.map Sleeper.participant).Nodup := by
  have hnotified : Sleeper.participant ∘ (fun sleeper : Sleeper =>
      { sleeper with notified := true }) = Sleeper.participant := rfl
  generalize hnext : barrier.perform operation = next
  have heffect := effect_perform barrier operation
  rw [hnext] at heffect
  cases heffect with
  | nothing => exact h.nodup_sleepers
  | enlisted => exact h.nodup_sleepers
  | left => exact h.nodup_sleepers
  | leftLast => simpa [nextPhase, vacate, hnotified] using h.nodup_sleepers
  | @slept participant =>
      simp only [lull, mark, List.map_append, List.map_cons, List.map_nil]
      apply List.Nodup.append h.nodup_sleepers (List.nodup_singleton _)
      intro number hold hnew
      rcases List.mem_map.mp hold with ⟨sleeper, hsleeper, hsame⟩
      exact hpermits ⟨sleeper, hsleeper, hsame.trans (List.mem_singleton.mp hnew)⟩
  | arrivedLast => simpa [nextPhase, mark, hnotified] using h.nodup_sleepers
  | roused => exact h.nodup_sleepers.sublist (List.filter_sublist.map _)

theorem Attended.perform (h : Attended barrier) (hpermits : barrier.Permits operation) :
    Attended (barrier.perform operation) where
  toSound := h.toSound.effect (effect_perform barrier operation)
  hold_at := fun _ hmem => h.hold_at_perform hpermits hmem
  nodup_sleepers := h.nodup_perform hpermits

theorem attended_after (h : OneCaller operations) : Attended (after operations) := by
  induction operations using List.reverseRecOn with
  | nil => exact attended_new
  | append_singleton operations operation ih =>
      rcases oneCaller_append_singleton.mp h with ⟨hbefore, hpermits⟩
      rw [after_append]
      exact (ih hbefore).perform hpermits

/-!
# Arrivals and what they come back to
-/

/-- Whether a participant arrived in a phase of a run, went to sleep, and has not come back. -/
inductive Awaits (participant phase : Nat) : List Operation -> Prop where
  | arrived {operations : List Operation} (hphase : (after operations).phase = phase)
      (hasleep : ((after operations).arrive participant).1 = .ok .asleep) :
      Awaits participant phase (operations ++ [.arrive participant])
  | stays {operations : List Operation} {operation : Operation}
      (h : Awaits participant phase operations)
      (hlets : (after operations).LetsSleep participant operation) :
      Awaits participant phase (operations ++ [operation])

theorem awaits_iff (h : OneCaller operations) :
    Awaits participant phase operations <->
      exists sleeper, sleeper ∈ (after operations).sleepers ∧
        sleeper.participant = participant ∧ sleeper.phase = phase := by
  constructor
  · intro hawaits
    induction hawaits with
    | @arrived operations hphase hasleep =>
      rw [after_append, <- hphase]
      exact (hold_of_asleep hasleep).1
    | @stays operations operation _ hlets ih =>
      rcases oneCaller_append_singleton.mp h with ⟨hbefore, hpermits⟩
      rcases ih hbefore with ⟨sleeper, hmem, rfl, rfl⟩
      rw [after_append]
      rcases (attended_after hbefore).spares hmem hpermits hlets with hspares | hidle
      · exact exists_sleeper_effect (effect_perform _ operation) hspares ⟨sleeper, hmem, rfl, rfl⟩
      · rw [perform_of_idle hidle]
        exact ⟨sleeper, hmem, rfl, rfl⟩
  · induction operations using List.reverseRecOn with
    | nil => simp [after, new]
    | append_singleton operations operation ih =>
      rintro ⟨sleeper, hmem, rfl, rfl⟩
      rcases oneCaller_append_singleton.mp h with ⟨hbefore, hpermits⟩
      rw [after_append] at hmem
      rcases (attended_after hbefore).origin hmem with
        ⟨old, hold, hsame, hphase, hlets⟩ | ⟨rfl, hphase, hasleep⟩
      · rw [hsame] at hlets
        exact (ih hbefore ⟨old, hold, hsame, hphase⟩).stays hlets
      · exact .arrived hphase.symm hasleep

/--
What becomes of the arrivals of a run.  A sleeper is notified when the phase it
arrived in ends, not before; then it can get up, and not before.  Whoever comes
back, at once or from its sleep, is told the phase after the one it arrived in,
finds it running, and is registered and absent in it.
-/
structure Served (operations : List Operation) : Prop where
  asleep : forall participant phase, Awaits participant phase operations <->
    exists sleeper, sleeper ∈ (after operations).sleepers ∧
      sleeper.participant = participant ∧ sleeper.phase = phase
  woken : forall sleeper, sleeper ∈ (after operations).sleepers ->
    sleeper.phase ≠ (after operations).phase -> sleeper.notified = true ∧
      exists resumed,
        (after operations).resume? sleeper.participant sleeper.phase = some resumed
  unwoken : forall sleeper, sleeper ∈ (after operations).sleepers ->
    sleeper.phase = (after operations).phase -> sleeper.notified = false ∧
      (after operations).resume? sleeper.participant sleeper.phase = none
  resumed : forall participant phase answer next,
    (after operations).resume? participant phase = some (answer, next) ->
      Awaits participant phase operations ∧ phase ≠ (after operations).phase ∧
        answer = phase + 1 ∧ next.phase = answer ∧ next.standing participant = some false
  advanced : forall participant answer next,
    (after operations).arrive participant = (.ok (.advanced answer), next) ->
      answer = (after operations).phase + 1 ∧ next.phase = answer ∧
        next.standing participant = some false

theorem Attended.resume?_isSome_iff (h : Attended barrier) {sleeper : Sleeper}
    (hmem : sleeper ∈ barrier.sleepers) :
    (barrier.resume? sleeper.participant sleeper.phase).isSome = true <->
      sleeper.phase ≠ barrier.phase := by
  have hhold := h.hold_at sleeper hmem
  constructor
  · intro hsome
    rcases Option.isSome_iff_exists.mp hsome with ⟨resumed, hresumed⟩
    rcases resume?_eq_some hresumed with ⟨found, _, _, hphase, _, hne, _⟩
    rwa [<- hphase]
  · intro hne
    rcases hhold.2 with ⟨_, hrunning⟩ | ⟨habsent, _⟩
    · exact absurd hrunning.symm hne
    · exact h.toSound.resume?_isSome hhold habsent

theorem advanced_of_arrive {answer : Nat}
    (harrive : barrier.arrive participant = (.ok (.advanced answer), next)) :
    answer = barrier.phase + 1 ∧ next.phase = answer ∧
      next.standing participant = some false := by
  cases href : barrier.refusal? participant with
  | some error =>
      rw [arrive_of_refusal href] at harrive
      cases harrive
  | none =>
      have hworking : (Hold.working barrier.phase).At barrier participant :=
        ⟨refusal?_eq_none_iff.mp href, rfl⟩
      rcases hworking.arrive with ⟨hadvanced, habsent, hphase⟩ | ⟨hasleep, _⟩
      · rw [harrive] at hadvanced habsent hphase
        cases hadvanced
        exact ⟨rfl, hphase, habsent⟩
      · rw [harrive] at hasleep
        cases hasleep

/-- With one caller at a time for each participant, no wake-up is lost and no phase missed. -/
theorem served_after (operations : List Operation) (h : OneCaller operations) :
    Served operations := by
  have hattended := attended_after h
  constructor
  · intro participant phase
    exact awaits_iff h
  · intro sleeper hmem hne
    have hlt : sleeper.phase < (after operations).phase :=
      Nat.lt_of_le_of_ne (hattended.sleeper_le sleeper hmem) hne
    have hsome := (hattended.resume?_isSome_iff hmem).mpr hne
    exact ⟨(hattended.notified_iff sleeper hmem).mpr hlt, Option.isSome_iff_exists.mp hsome⟩
  · intro sleeper hmem heq
    constructor
    · rw [<- Bool.not_eq_true, hattended.notified_iff sleeper hmem]
      exact Nat.not_lt_of_ge (Nat.le_of_eq heq.symm)
    · rw [<- Option.not_isSome_iff_eq_none, hattended.resume?_isSome_iff hmem]
      exact not_not_intro heq
  · intro participant phase answer next hresumed
    rcases resume?_eq_some hresumed with ⟨sleeper, hmem, hsame, hphase, _, hne, _⟩
    have hhold := hattended.hold_at sleeper hmem
    rw [hsame, hphase] at hhold
    rcases hhold.resume hresumed with ⟨hanswer, habsent, hnext⟩
    refine ⟨(awaits_iff h).mpr ⟨sleeper, hmem, hsame, hphase⟩, ?_, hanswer, ?_, habsent⟩
    · rwa [<- hphase]
    · exact hnext.trans hanswer.symm
  · intro participant answer next
    exact advanced_of_arrive

def lateRiser : List Operation :=
  [.register, .register, .register, .arrive 0, .arrive 1, .leave 2, .resume 0 0, .register,
    .arrive 3, .arrive 0]

theorem served_after_lateRiser :
    OneCaller lateRiser ∧ (after lateRiser).phase = 1 ∧
      ((after lateRiser).resume? 1 0).map Prod.fst = some 1 ∧ Served lateRiser :=
  ⟨by decide, by decide, by decide, served_after lateRiser (by decide)⟩

end Barrier

end BrokerProbe
