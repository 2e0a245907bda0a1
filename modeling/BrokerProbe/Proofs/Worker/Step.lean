import BrokerProbe.Proofs.Barrier.Hold
import BrokerProbe.Worker.Basic
/-!
# Steps of a worker

`Passage` lists all that one step of a worker can do.  A step makes at most one
call on the barrier, for the worker's own seat, and leaves the worker's identity
alone.  What a step does that others may want to know of is a deed.
-/

namespace BrokerProbe

namespace Worker

variable {World : Type}

def Closing.isCrash : Closing -> Bool
  | .crashed => true
  | .returned .crashed => true
  | _ => false

def Closing.isFailure : Closing -> Bool
  | .unstarted => true
  | .returned (.refused _) => true
  | _ => false

theorem afterSession_of_isCrash (worker : Worker) {closing : Closing}
    (h : closing.isCrash = true) :
    worker.afterSession closing = worker.move (.resigning .panicked) := by
  cases closing with
  | unstarted => cases h
  | crashed => rfl
  | returned ending =>
      cases ending with
      | completed => cases h
      | refused => cases h
      | crashed => rfl

theorem afterSession_of_not_isCrash (worker : Worker) {closing : Closing}
    (h : closing.isCrash = false) :
    worker.afterSession closing = worker.countRound closing.isFailure := by
  cases closing with
  | unstarted => rfl
  | crashed => cases h
  | returned ending =>
      cases ending with
      | completed => rfl
      | refused => rfl
      | crashed => cases h

/-!
# Deeds
-/

inductive Deed where
  | joined (phase : Nat)
  | began (phase : Nat)
  | ended (phase : Nat) (closing : Closing)
  /-- It decided whether the round was its last. -/
  | judged (last : Bool)
  | arrived (phase : Nat)
  /-- It decided after the pause whether to stop. -/
  | checked (stop : Bool)
  | left (phase : Nat)
  | refused (error : BarrierError)

def Deed.ofAnswer {Answer : Type} (deed : Answer -> Deed) : Except BarrierError Answer -> Deed
  | .ok answer => deed answer
  | .error error => .refused error

def deed? (worker : Worker) (floor : Floor World) : Option Deed :=
  match worker.stage with
  | .ready => some (.began floor.barrier.phase)
  | .closing closing => some (.ended floor.barrier.phase closing)
  | .judging => some (.judged (floor.stopping || worker.limitReached))
  | .leaving => some (.ofAnswer .left (floor.barrier.leave worker.participant).1)
  | .arriving =>
      some (.ofAnswer (fun _ => .arrived floor.barrier.phase)
        (floor.barrier.arrive worker.participant).1)
  | .checking => some (.checked floor.stopping)
  | .resigning _ => some (.ofAnswer .left (floor.barrier.leave worker.participant).1)
  | _ => none

/-- Whether a deed names the phase and the flag as they are on the floor. -/
def Deed.Fits (floor : Floor World) : Deed -> Prop
  | joined phase => phase = floor.barrier.phase
  | began phase => phase = floor.barrier.phase
  | ended phase _ => phase = floor.barrier.phase
  | judged _ => True
  | arrived phase => phase = floor.barrier.phase
  | checked stop => stop = floor.stopping
  | left phase => phase = floor.barrier.phase
  | refused _ => True

theorem Deed.fits_leave (floor : Floor World) (participant : Nat) :
    (ofAnswer left (floor.barrier.leave participant).1).Fits floor := by
  cases hrefusal : floor.barrier.refusal? participant with
  | some error =>
      rw [Barrier.leave_of_refusal hrefusal]
      trivial
  | none =>
      rw [Barrier.leave_of_standing (Barrier.refusal?_eq_none_iff.mp hrefusal)]
      rfl

theorem Deed.fits_of_deed? {worker : Worker} {floor : Floor World} {deed : Deed}
    (h : worker.deed? floor = some deed) : deed.Fits floor := by
  cases hstage : worker.stage <;> simp only [deed?, hstage] at h <;> cases h
  case ready => rfl
  case closing => rfl
  case judging => trivial
  case leaving => exact fits_leave floor worker.participant
  case arriving =>
    cases harrived : (floor.barrier.arrive worker.participant).1 with
    | ok => exact rfl
    | error => trivial
  case checking => rfl
  case resigning => exact fits_leave floor worker.participant

/-!
# Passages
-/

structure Quiet (floor next : Floor World) : Prop where
  barrier : next.barrier = floor.barrier
  stopping : next.stopping = floor.stopping

/-- All that one step of a worker can do, with the deed that it is. -/
inductive Passage (worker : Worker) (floor : Floor World) :
    Worker -> Floor World -> Option Deed -> Prop where
  | unstarted {next : Floor World} (hstage : worker.stage = .ready)
      (hquiet : Quiet floor next) :
      Passage worker floor (worker.move (.closing .unstarted)) next
        (some (.began floor.barrier.phase))
  | started {next : Floor World} (hstage : worker.stage = .ready)
      (hquiet : Quiet floor next) :
      Passage worker floor
        { worker with
          runs := worker.runs + 1
          stage := .rounding (worker.round worker.runs) #[] }
        next (some (.began floor.barrier.phase))
  | asked {next : Floor World} {question : Round.Question}
      {following : Round.Answer question -> Round.Asking Round.Ending}
      {before after : Array Metric.Window} (answer : Round.Answer question)
      (hstage : worker.stage = .rounding (.ask question following) before)
      (hbarrier : next.barrier = floor.barrier)
      (hstopping : floor.stopping = true -> next.stopping = true) :
      Passage worker floor (worker.move (.rounding (following answer) after)) next none
  | returned {ending : Round.Ending} {detached : Array Metric.Window}
      (hstage : worker.stage = .rounding (.done ending) detached) :
      Passage worker floor (worker.move (afterRound ending)) floor none
  | reported {next : Floor World} {ending : Round.Ending}
      (hstage : worker.stage = .reporting ending) (hquiet : Quiet floor next) :
      Passage worker floor (worker.move (.closing (.returned ending))) next none
  | panicked {next : Floor World} {closing : Closing} (hstage : worker.stage = .closing closing)
      (hcrash : closing.isCrash = true) (hquiet : Quiet floor next) :
      Passage worker floor (worker.move (.resigning .panicked)) next
        (some (.ended floor.barrier.phase closing))
  | counted {next : Floor World} {closing : Closing} (hstage : worker.stage = .closing closing)
      (hcrash : closing.isCrash = false) (hquiet : Quiet floor next) :
      Passage worker floor (worker.countRound closing.isFailure) next
        (some (.ended floor.barrier.phase closing))
  | last (hstage : worker.stage = .judging)
      (hlast : (floor.stopping || worker.limitReached) = true) :
      Passage worker floor (worker.move .leaving) floor (some (.judged true))
  | notLast (hstage : worker.stage = .judging)
      (hlast : (floor.stopping || worker.limitReached) = false) :
      Passage worker floor (worker.move .arriving) floor (some (.judged false))
  | left {phase : Nat} (hstage : worker.stage = .leaving)
      (hanswer : (floor.barrier.leave worker.participant).1 = .ok phase) :
      Passage worker floor (worker.move (.ended (.finished (worker.summary phase))))
        { floor with barrier := (floor.barrier.leave worker.participant).2 } (some (.left phase))
  | leaveRefused {error : BarrierError} (hstage : worker.stage = .leaving)
      (hanswer : (floor.barrier.leave worker.participant).1 = .error error) :
      Passage worker floor (worker.move (.ended (.rejected error)))
        { floor with barrier := (floor.barrier.leave worker.participant).2 }
        (some (.refused error))
  | advanced {phase : Nat} (hstage : worker.stage = .arriving)
      (hanswer : (floor.barrier.arrive worker.participant).1 = .ok (.advanced phase)) :
      Passage worker floor (worker.move .pausing)
        { floor with barrier := (floor.barrier.arrive worker.participant).2 }
        (some (.arrived floor.barrier.phase))
  | slept (hstage : worker.stage = .arriving)
      (hanswer : (floor.barrier.arrive worker.participant).1 = .ok .asleep) :
      Passage worker floor (worker.move (.asleep floor.barrier.phase))
        { floor with barrier := (floor.barrier.arrive worker.participant).2 }
        (some (.arrived floor.barrier.phase))
  | arriveRefused {error : BarrierError} (hstage : worker.stage = .arriving)
      (hanswer : (floor.barrier.arrive worker.participant).1 = .error error) :
      Passage worker floor (worker.move (.resigning (.rejected error)))
        { floor with barrier := (floor.barrier.arrive worker.participant).2 }
        (some (.refused error))
  | woke {phase : Nat} {resumed : Nat × Barrier} (hstage : worker.stage = .asleep phase)
      (hresumed : floor.barrier.resume? worker.participant phase = some resumed) :
      Passage worker floor (worker.move .pausing) { floor with barrier := resumed.2 } none
  | paused (hstage : worker.stage = .pausing) :
      Passage worker floor (worker.move .checking) floor none
  | stopped (hstage : worker.stage = .checking) (hstopping : floor.stopping = true) :
      Passage worker floor (worker.move .leaving) floor (some (.checked true))
  | wentOn (hstage : worker.stage = .checking) (hstopping : floor.stopping = false) :
      Passage worker floor (worker.move .ready) floor (some (.checked false))
  | resigned {verdict : Verdict} (hstage : worker.stage = .resigning verdict) :
      Passage worker floor (worker.move (.ended verdict))
        { floor with barrier := (floor.barrier.leave worker.participant).2 }
        (some (.ofAnswer .left (floor.barrier.leave worker.participant).1))

variable {environment : Environment World} {worker moved : Worker} {floor next : Floor World}

theorem passage_ready (environment : Environment World) (floor : Floor World)
    (hstage : worker.stage = .ready) :
    Passage worker floor (worker.stepReady environment floor).1
      (worker.stepReady environment floor).2 (some (.began floor.barrier.phase)) := by
  simp only [stepReady]
  split
  · exact .unstarted hstage ⟨rfl, rfl⟩
  · exact .started hstage ⟨rfl, rfl⟩

theorem quiet_putRegistry (floor : Floor World) (aside : Option String)
    (registry : Metric.Registry) : Quiet floor (floor.putRegistry aside registry) := by
  cases aside <;> exact ⟨rfl, rfl⟩

theorem stopping_reply (surroundings : Round.Surroundings World) (question : Round.Question)
    (scene : Round.Scene World) (h : scene.stopping = true) :
    (scene.reply surroundings question).2.stopping = true := by
  cases question with
  | metric => exact h
  | fetch => exact h
  | close => exact h
  | peers directory => cases directory <;> exact h
  | read => exact h
  | tell => exact h
  | stopAll => rfl

theorem passage_round (environment : Environment World) (floor : Floor World)
    {rest : Round.Asking Round.Ending} {detached : Array Metric.Window}
    (hstage : worker.stage = .rounding rest detached) :
    Passage worker floor (worker.stepRound environment floor rest detached).1
      (worker.stepRound environment floor rest detached).2 none := by
  cases rest with
  | done ending => exact .returned hstage
  | ask question following =>
      refine .asked _ hstage (quiet_putRegistry _ _ _).barrier ?_
      intro hstopping
      exact stopping_reply _ _ _ hstopping

theorem passage_close (environment : Environment World) (floor : Floor World)
    {closing : Closing} (hstage : worker.stage = .closing closing) :
    Passage worker floor (worker.stepClose environment floor closing).1
      (worker.stepClose environment floor closing).2
      (some (.ended floor.barrier.phase closing)) := by
  have hquiet : Quiet floor (worker.stepClose environment floor closing).2 := by
    simp only [stepClose]
    split <;> exact ⟨rfl, rfl⟩
  have hmoved : (worker.stepClose environment floor closing).1 =
      worker.afterSession closing := by
    simp only [stepClose]
    split <;> rfl
  rw [hmoved]
  cases hcrash : closing.isCrash with
  | true =>
      rw [afterSession_of_isCrash worker hcrash]
      exact .panicked hstage hcrash hquiet
  | false =>
      rw [afterSession_of_not_isCrash worker hcrash]
      exact .counted hstage hcrash hquiet

theorem passage_leave (floor : Floor World) (hstage : worker.stage = .leaving) :
    Passage worker floor (worker.stepLeave floor).1 (worker.stepLeave floor).2
      (some (.ofAnswer .left (floor.barrier.leave worker.participant).1)) := by
  simp only [stepLeave]
  split
  · next phase hanswer =>
    rw [hanswer]
    exact .left hstage hanswer
  · next error hanswer =>
    rw [hanswer]
    exact .leaveRefused hstage hanswer

theorem passage_arrive (floor : Floor World) (hstage : worker.stage = .arriving) :
    Passage worker floor (worker.stepArrive floor).1 (worker.stepArrive floor).2
      (some (.ofAnswer (fun _ => .arrived floor.barrier.phase)
        (floor.barrier.arrive worker.participant).1)) := by
  simp only [stepArrive]
  split
  · next phase hanswer =>
    rw [hanswer]
    exact .advanced hstage hanswer
  · next hanswer =>
    rw [hanswer]
    exact .slept hstage hanswer
  · next error hanswer =>
    rw [hanswer]
    exact .arriveRefused hstage hanswer

theorem passage_of_step (h : worker.step? environment floor = some (moved, next)) :
    Passage worker floor moved next (worker.deed? floor) := by
  -- A step, its deed and its passage all go by the stage.
  cases hstage : worker.stage with
  | ready =>
      simp only [step?, hstage, Option.some.injEq] at h
      have hpassage := passage_ready environment floor hstage
      rw [h] at hpassage
      simpa only [deed?, hstage] using hpassage
  | rounding rest detached =>
      simp only [step?, hstage, Option.some.injEq] at h
      have hpassage := passage_round environment floor hstage
      rw [h] at hpassage
      simpa only [deed?, hstage] using hpassage
  | reporting ending =>
      simp only [step?, hstage, stepReport, Option.some.injEq, Prod.mk.injEq] at h
      rcases h with ⟨rfl, rfl⟩
      simp only [deed?, hstage]
      exact .reported hstage ⟨rfl, rfl⟩
  | closing closing =>
      simp only [step?, hstage, Option.some.injEq] at h
      have hpassage := passage_close environment floor hstage
      rw [h] at hpassage
      simpa only [deed?, hstage] using hpassage
  | judging =>
      simp only [step?, hstage, Option.some.injEq, Prod.mk.injEq] at h
      rcases h with ⟨rfl, rfl⟩
      simp only [deed?, hstage]
      cases hlast : floor.stopping || worker.limitReached with
      | true => exact .last hstage hlast
      | false => exact .notLast hstage hlast
  | leaving =>
      simp only [step?, hstage, Option.some.injEq] at h
      have hpassage := passage_leave floor hstage
      rw [h] at hpassage
      simpa only [deed?, hstage] using hpassage
  | arriving =>
      simp only [step?, hstage, Option.some.injEq] at h
      have hpassage := passage_arrive floor hstage
      rw [h] at hpassage
      simpa only [deed?, hstage] using hpassage
  | asleep phase =>
      simp only [step?, hstage] at h
      simp only [deed?, hstage]
      split at h
      · next resumed hresumed =>
        simp only [Option.some.injEq, Prod.mk.injEq] at h
        rcases h with ⟨rfl, rfl⟩
        exact .woke hstage hresumed
      · cases h
  | pausing =>
      simp only [step?, hstage, Option.some.injEq, Prod.mk.injEq] at h
      rcases h with ⟨rfl, rfl⟩
      simp only [deed?, hstage]
      exact .paused hstage
  | checking =>
      simp only [step?, hstage, Option.some.injEq, Prod.mk.injEq] at h
      rcases h with ⟨rfl, rfl⟩
      simp only [deed?, hstage]
      cases hstopping : floor.stopping with
      | true => exact .stopped hstage hstopping
      | false => exact .wentOn hstage hstopping
  | resigning verdict =>
      simp only [step?, hstage, Option.some.injEq, Prod.mk.injEq] at h
      rcases h with ⟨rfl, rfl⟩
      simp only [deed?, hstage]
      exact .resigned hstage
  | ended verdict => simp [step?, hstage] at h

/-!
# What a step leaves alone
-/

variable {deed? : Option Deed}

theorem Passage.participant_eq (h : Passage worker floor moved next deed?) :
    moved.participant = worker.participant := by
  cases h <;> rfl

theorem Passage.limit_eq (h : Passage worker floor moved next deed?) :
    moved.limit = worker.limit := by
  cases h <;> rfl

theorem Passage.role_eq (h : Passage worker floor moved next deed?) :
    moved.role = worker.role := by
  cases h <;> rfl

theorem Passage.stopping (h : Passage worker floor moved next deed?)
    (hstopping : floor.stopping = true) : next.stopping = true := by
  cases h with
  | unstarted _ hquiet => exact hquiet.stopping.trans hstopping
  | started _ hquiet => exact hquiet.stopping.trans hstopping
  | asked _ _ _ hkept => exact hkept hstopping
  | returned => exact hstopping
  | reported _ hquiet => exact hquiet.stopping.trans hstopping
  | panicked _ _ hquiet => exact hquiet.stopping.trans hstopping
  | counted _ _ hquiet => exact hquiet.stopping.trans hstopping
  | last => exact hstopping
  | notLast => exact hstopping
  | left => exact hstopping
  | leaveRefused => exact hstopping
  | advanced => exact hstopping
  | slept => exact hstopping
  | arriveRefused => exact hstopping
  | woke => exact hstopping
  | paused => exact hstopping
  | stopped => exact hstopping
  | wentOn => exact hstopping
  | resigned => exact hstopping

def isAbandoned (worker : Worker) : Bool :=
  match worker.stage with
  | .resigning .abandoned => true
  | .ended .abandoned => true
  | _ => false

theorem Passage.isAbandoned_eq_false (h : Passage worker floor moved next deed?)
    (hkept : worker.isAbandoned = false) : moved.isAbandoned = false := by
  cases h with
  | @returned ending =>
      cases ending with
      | completed => rfl
      | refused => rfl
      | crashed => rfl
  | @resigned verdict hstage =>
      cases verdict with
      | abandoned => simp [isAbandoned, hstage] at hkept
      | finished => rfl
      | rejected => rfl
      | panicked => rfl
  | _ => rfl

theorem Passage.effect (h : Passage worker floor moved next deed?) :
    next.barrier = floor.barrier ∨
      exists operation : Barrier.Operation, operation.caller? = some worker.participant ∧
        Barrier.Effect floor.barrier operation next.barrier := by
  have hleave := Barrier.effect_perform floor.barrier (.leave worker.participant)
  have harrive := Barrier.effect_perform floor.barrier (.arrive worker.participant)
  cases h with
  | unstarted _ hquiet => exact Or.inl hquiet.barrier
  | started _ hquiet => exact Or.inl hquiet.barrier
  | asked _ _ hbarrier => exact Or.inl hbarrier
  | returned => exact Or.inl rfl
  | reported _ hquiet => exact Or.inl hquiet.barrier
  | panicked _ _ hquiet => exact Or.inl hquiet.barrier
  | counted _ _ hquiet => exact Or.inl hquiet.barrier
  | last => exact Or.inl rfl
  | notLast => exact Or.inl rfl
  | left => exact Or.inr ⟨_, rfl, hleave⟩
  | leaveRefused => exact Or.inr ⟨_, rfl, hleave⟩
  | advanced => exact Or.inr ⟨_, rfl, harrive⟩
  | slept => exact Or.inr ⟨_, rfl, harrive⟩
  | arriveRefused => exact Or.inr ⟨_, rfl, harrive⟩
  | @woke phase _ _ hresumed =>
      refine Or.inr ⟨.resume worker.participant phase, rfl, ?_⟩
      have heffect := Barrier.effect_perform floor.barrier (.resume worker.participant phase)
      simpa only [Barrier.perform, hresumed] using heffect
  | paused => exact Or.inl rfl
  | stopped => exact Or.inl rfl
  | wentOn => exact Or.inl rfl
  | resigned => exact Or.inr ⟨_, rfl, hleave⟩

theorem Passage.sound (h : Passage worker floor moved next deed?)
    (hsound : floor.barrier.Sound) : next.barrier.Sound := by
  rcases h.effect with hsame | ⟨_, _, heffect⟩
  · exact hsame ▸ hsound
  · exact hsound.effect heffect

def Stage.isCall : Stage -> Bool
  | leaving => true
  | arriving => true
  | resigning _ => true
  | _ => false

theorem Passage.phase_eq (h : Passage worker floor moved next deed?) :
    next.barrier.phase = floor.barrier.phase ∨
      worker.stage.isCall = true ∧ floor.barrier.seats ≠ [] ∧
        next.barrier.phase = floor.barrier.phase + 1 := by
  have hcall {barrier : Barrier} {operation : Barrier.Operation}
      (hstage : worker.stage.isCall = true)
      (heffect : Barrier.Effect floor.barrier operation barrier) :
      barrier.phase = floor.barrier.phase ∨
        worker.stage.isCall = true ∧ floor.barrier.seats ≠ [] ∧
          barrier.phase = floor.barrier.phase + 1 := by
    rcases Barrier.phase_effect heffect with hsame | ⟨hnext, hseats⟩
    · exact Or.inl hsame
    · exact Or.inr ⟨hstage, hseats, hnext⟩
  have hleave := Barrier.effect_perform floor.barrier (.leave worker.participant)
  have harrive := Barrier.effect_perform floor.barrier (.arrive worker.participant)
  cases h with
  | unstarted _ hquiet => exact Or.inl (congrArg Barrier.phase hquiet.barrier)
  | started _ hquiet => exact Or.inl (congrArg Barrier.phase hquiet.barrier)
  | asked _ _ hbarrier => exact Or.inl (congrArg Barrier.phase hbarrier)
  | returned => exact Or.inl rfl
  | reported _ hquiet => exact Or.inl (congrArg Barrier.phase hquiet.barrier)
  | panicked _ _ hquiet => exact Or.inl (congrArg Barrier.phase hquiet.barrier)
  | counted _ _ hquiet => exact Or.inl (congrArg Barrier.phase hquiet.barrier)
  | last => exact Or.inl rfl
  | notLast => exact Or.inl rfl
  | left hstage => exact hcall (by rw [hstage]; rfl) hleave
  | leaveRefused hstage => exact hcall (by rw [hstage]; rfl) hleave
  | advanced hstage => exact hcall (by rw [hstage]; rfl) harrive
  | slept hstage => exact hcall (by rw [hstage]; rfl) harrive
  | arriveRefused hstage => exact hcall (by rw [hstage]; rfl) harrive
  | woke _ hresumed =>
      rcases Barrier.resume?_eq_some hresumed with ⟨sleeper, _, _, _, _, _, heq⟩
      rw [heq]
      exact Or.inl rfl
  | paused => exact Or.inl rfl
  | stopped => exact Or.inl rfl
  | wentOn => exact Or.inl rfl
  | resigned hstage => exact hcall (by rw [hstage]; rfl) hleave

theorem Passage.seats_ne_nil (h : Passage worker floor moved next deed?)
    (hphase : next.barrier.phase = floor.barrier.phase) (hne : floor.barrier.seats ≠ []) :
    next.barrier.seats ≠ [] := by
  rcases h.effect with hsame | ⟨_, _, heffect⟩
  · rwa [hsame]
  · exact Barrier.seats_ne_nil_effect heffect hphase hne

theorem Passage.nextParticipant_le (h : Passage worker floor moved next deed?) :
    floor.barrier.nextParticipant <= next.barrier.nextParticipant := by
  rcases h.effect with hsame | ⟨_, _, heffect⟩
  · exact hsame ▸ Nat.le_refl _
  · exact Barrier.nextParticipant_le_effect heffect

theorem Passage.isSome_standing (h : Passage worker floor moved next deed?) {participant : Nat}
    (hsome : (next.barrier.standing participant).isSome = true) :
    (floor.barrier.standing participant).isSome = true := by
  rcases h.effect with hsame | ⟨operation, hcaller, heffect⟩
  · rwa [hsame] at hsome
  · rcases Barrier.isSome_standing_effect heffect hsome with hold | ⟨rfl, _⟩
    · exact hold
    · cases hcaller

theorem isSome_step? (environment : Environment World) (floor : Floor World)
    (hawake : forall phase, worker.stage ≠ .asleep phase)
    (hlive : worker.hasEnded = false) : (worker.step? environment floor).isSome = true := by
  cases hstage : worker.stage with
  | asleep phase => exact absurd hstage (hawake phase)
  | ended verdict => simp [hasEnded, verdict?, hstage] at hlive
  | ready => simp [step?, hstage]
  | rounding => simp [step?, hstage]
  | reporting => simp [step?, hstage]
  | closing => simp [step?, hstage]
  | judging => simp [step?, hstage]
  | leaving => simp [step?, hstage]
  | arriving => simp [step?, hstage]
  | pausing => simp [step?, hstage]
  | checking => simp [step?, hstage]
  | resigning => simp [step?, hstage]

end Worker

end BrokerProbe
