import BrokerProbe.Proofs.Worker.Step
/-!
# The course of a worker

A worker goes round and round: it begins a round, ends it, judges whether that
was the last, arrives at the barrier, and checks after the pause whether to
stop.  One time around is a lap, and each lap has a phase of its own, the one
after the phase of the lap before.  `Leg` says where in its lap a worker is, what
it has done since the lap began and what it holds of the barrier; `Course` adds
the laps before.
-/

namespace BrokerProbe

namespace Worker

open Barrier (Hold)

variable {World : Type}

/-!
# Laps
-/

def Deed.lap (phase : Nat) (closing : Closing) : List Deed :=
  [began phase, ended phase closing, judged false, arrived phase, checked false]

def Deed.laps : Nat -> List Closing -> List Deed
  | _, [] => []
  | phase, closing :: rest => lap phase closing ++ laps (phase + 1) rest

theorem Deed.laps_append_singleton (phase : Nat) (past : List Closing) (closing : Closing) :
    laps phase (past ++ [closing]) = laps phase past ++ lap (phase + past.length) closing := by
  induction past generalizing phase with
  | nil => simp [laps]
  | cons first rest ih =>
      have hphase : phase + 1 + rest.length = phase + (first :: rest).length := by
        simp only [List.length_cons]
        omega
      simp only [List.cons_append, laps, ih, hphase, List.append_assoc]

/--
Where a worker is in the lap of a phase: how the round of this lap closed if it
did, the deeds since the lap began, and what the worker holds of the barrier.
-/
inductive Leg (worker : Worker) (phase : Nat) :
    Stage -> List Closing -> List Deed -> Hold -> Prop where
  | ready : Leg worker phase .ready [] [] (.working phase)
  | rounding (rest : Round.Asking Round.Ending) (detached : Array Metric.Window) :
      Leg worker phase (.rounding rest detached) [] [.began phase] (.working phase)
  | reporting (ending : Round.Ending) :
      Leg worker phase (.reporting ending) [] [.began phase] (.working phase)
  | closing (closing : Closing) :
      Leg worker phase (.closing closing) [] [.began phase] (.working phase)
  | judging {closing : Closing} (hcrash : closing.isCrash = false) :
      Leg worker phase .judging [closing] [.began phase, .ended phase closing]
        (.working phase)
  | retiring {closing : Closing} (hcrash : closing.isCrash = false) :
      Leg worker phase .leaving [closing]
        [.began phase, .ended phase closing, .judged true] (.working phase)
  | retired {closing : Closing} (hcrash : closing.isCrash = false) :
      Leg worker phase (.ended (.finished (worker.summary phase))) [closing]
        [.began phase, .ended phase closing, .judged true, .left phase] (.gone phase)
  | arriving {closing : Closing} (hcrash : closing.isCrash = false) :
      Leg worker phase .arriving [closing]
        [.began phase, .ended phase closing, .judged false] (.working phase)
  | asleep {closing : Closing} (hcrash : closing.isCrash = false) :
      Leg worker phase (.asleep phase) [closing]
        [.began phase, .ended phase closing, .judged false, .arrived phase] (.waiting phase)
  | pausing {closing : Closing} (hcrash : closing.isCrash = false) :
      Leg worker phase .pausing [closing]
        [.began phase, .ended phase closing, .judged false, .arrived phase]
        (.working (phase + 1))
  | checking {closing : Closing} (hcrash : closing.isCrash = false) :
      Leg worker phase .checking [closing]
        [.began phase, .ended phase closing, .judged false, .arrived phase]
        (.working (phase + 1))
  | stopping {closing : Closing} (hcrash : closing.isCrash = false) :
      Leg worker phase .leaving [closing]
        [.began phase, .ended phase closing, .judged false, .arrived phase, .checked true]
        (.working (phase + 1))
  | stopped {closing : Closing} (hcrash : closing.isCrash = false) :
      Leg worker phase (.ended (.finished (worker.summary (phase + 1)))) [closing]
        [.began phase, .ended phase closing, .judged false, .arrived phase, .checked true,
          .left (phase + 1)]
        (.gone (phase + 1))
  | crashing {closing : Closing} (hcrash : closing.isCrash = true) :
      Leg worker phase (.resigning .panicked) [] [.began phase, .ended phase closing]
        (.working phase)
  | crashed {closing : Closing} (hcrash : closing.isCrash = true) :
      Leg worker phase (.ended .panicked) []
        [.began phase, .ended phase closing, .left phase] (.gone phase)
  | abandoning : Leg worker phase (.resigning .abandoned) [] [] (.working phase)
  | abandoned : Leg worker phase (.ended .abandoned) [] [.left phase] (.gone phase)

/--
The course of a worker that took its seat in the phase `entry`: the laps in
`past` are over, and the worker is on a leg of the next one.
-/
structure Course (barrier : Barrier) (worker : Worker) (entry : Nat) (deeds : List Deed)
    (past done : List Closing) (latest : List Deed) (hold : Hold) : Prop where
  leg : Leg worker (entry + past.length) worker.stage done latest hold
  uncrashed : forall closing, closing ∈ past -> closing.isCrash = false
  deeds_eq : deeds = .joined entry :: Deed.laps entry past ++ latest
  rounds_eq : worker.rounds = (past ++ done).length
  failedRounds_eq : worker.failedRounds = (past ++ done).countP Closing.isFailure
  hold_at : hold.At barrier worker.participant

def OnCourse (barrier : Barrier) (worker : Worker) (entry : Nat) (deeds : List Deed) : Prop :=
  exists past done latest hold, Course barrier worker entry deeds past done latest hold

variable {barrier after : Barrier} {worker moved : Worker} {entry : Nat}
variable {deeds latest : List Deed} {past done : List Closing} {hold next : Hold}

theorem onCourse_seated (role : Role) (limit : Option Nat)
    (round : Nat -> Round.Asking Round.Ending) (aside : Option String) {participant : Nat}
    (h : (Hold.working entry).At barrier participant) :
    OnCourse barrier (seated role limit round aside participant) entry [.joined entry] :=
  ⟨[], [], [], .working entry, .ready, fun _ hnone => absurd hnone List.not_mem_nil,
    rfl, rfl, rfl, h⟩

theorem Course.extend (h : Course barrier worker entry deeds past done latest hold)
    (more : List Deed) (hrounds : moved.rounds = worker.rounds)
    (hfailed : moved.failedRounds = worker.failedRounds)
    (hleg : Leg moved (entry + past.length) moved.stage done (latest ++ more) next)
    (hhold : next.At after moved.participant) :
    OnCourse after moved entry (deeds ++ more) := by
  refine ⟨past, done, latest ++ more, next, hleg, h.uncrashed, ?_, ?_, ?_, hhold⟩
  · rw [h.deeds_eq, List.append_assoc]
  · rw [hrounds, h.rounds_eq]
  · rw [hfailed, h.failedRounds_eq]

theorem Course.count (h : Course barrier worker entry deeds past [] latest hold)
    (closing : Closing) (more : List Deed)
    (hleg : Leg (worker.countRound closing.isFailure) (entry + past.length) .judging [closing]
      (latest ++ more) next)
    (hhold : next.At after worker.participant) :
    OnCourse after (worker.countRound closing.isFailure) entry (deeds ++ more) := by
  refine ⟨past, [closing], latest ++ more, next, hleg, h.uncrashed, ?_, ?_, ?_, hhold⟩
  · rw [h.deeds_eq, List.append_assoc]
  · have hrounds := h.rounds_eq
    simp only [List.append_nil] at hrounds
    simp [countRound, hrounds]
  · have hfailed := h.failedRounds_eq
    simp only [List.append_nil] at hfailed
    cases hfailure : closing.isFailure with
    | true => simp [countRound, hfailed, hfailure]
    | false => simp [countRound, hfailed, hfailure]

theorem Course.turn {closing : Closing}
    (h : Course barrier worker entry deeds past [closing] latest hold) (more : List Deed)
    (hcrash : closing.isCrash = false)
    (hlap : latest ++ more = Deed.lap (entry + past.length) closing)
    (hhold : (Hold.working (entry + past.length + 1)).At barrier worker.participant) :
    OnCourse barrier (worker.move .ready) entry (deeds ++ more) := by
  refine ⟨past ++ [closing], [], [], _, .ready, ?_, ?_, ?_, ?_, ?_⟩
  · intro other hother
    rcases List.mem_append.mp hother with hpast | hlast
    · exact h.uncrashed other hpast
    · rw [List.mem_singleton.mp hlast]
      exact hcrash
  · rw [h.deeds_eq, Deed.laps_append_singleton, <- hlap]
    simp
  · simpa [move] using h.rounds_eq
  · simpa [move] using h.failedRounds_eq
  · rw [List.length_append]
    exact hhold

/-!
# The beginning
-/

theorem Deed.exists_lap_of_mem_laps {deed : Deed} {phase : Nat} (h : deed ∈ laps phase past) :
    exists lapPhase closing, deed ∈ lap lapPhase closing := by
  induction past generalizing phase with
  | nil => exact absurd h List.not_mem_nil
  | cons closing rest ih =>
      rcases List.mem_append.mp h with hlap | hrest
      · exact ⟨phase, closing, hlap⟩
      · exact ih hrest

theorem Course.mem_deeds (h : Course barrier worker entry deeds past done latest hold)
    {deed : Deed} (hmem : deed ∈ deeds) :
    deed = .joined entry ∨ (exists lapPhase closing, deed ∈ Deed.lap lapPhase closing) ∨
      deed ∈ latest := by
  rw [h.deeds_eq, List.cons_append] at hmem
  rcases List.mem_cons.mp hmem with hfirst | htail
  · exact Or.inl hfirst
  · rcases List.mem_append.mp htail with hlaps | hlatest
    · exact Or.inr (Or.inl (Deed.exists_lap_of_mem_laps hlaps))
    · exact Or.inr (Or.inr hlatest)

theorem OnCourse.head?_deeds (h : OnCourse barrier worker entry deeds) :
    deeds.head? = some (.joined entry) := by
  rcases h with ⟨past, done, latest, hold, hcourse⟩
  rw [hcourse.deeds_eq]
  rfl

theorem Leg.joined_not_mem {stage : Stage} {phase : Nat}
    (h : Leg worker phase stage done latest hold) (entry : Nat) :
    Deed.joined entry ∉ latest := by
  cases h <;> simp

theorem OnCourse.eq_entry {phase : Nat} (h : OnCourse barrier worker entry deeds)
    (hmem : Deed.joined phase ∈ deeds) : phase = entry := by
  rcases h with ⟨past, done, latest, hold, hcourse⟩
  rcases hcourse.mem_deeds hmem with heq | ⟨lapPhase, closing, hlap⟩ | hlatest
  · cases heq
    rfl
  · simp [Deed.lap] at hlap
  · exact absurd hlatest (hcourse.leg.joined_not_mem phase)

/-!
# One step
-/

variable {floor later : Floor World} {deed? : Option Deed}

theorem OnCourse.step (h : OnCourse floor.barrier worker entry deeds)
    (hpassage : Passage worker floor moved later deed?) :
    OnCourse later.barrier moved entry (deeds ++ deed?.toList) := by
  rcases h with ⟨past, done, latest, hold, hcourse⟩
  have hleg := hcourse.leg
  have hhold := hcourse.hold_at
  -- The stage tells which leg the worker is on, and a passage starts from few of them.
  cases hpassage with
  | unstarted hstage hquiet =>
      rw [hstage] at hleg
      cases hleg
      rw [hquiet.barrier]
      have hphase := hhold.2
      exact hcourse.extend _ rfl rfl (hphase ▸ .closing _) hhold
  | started hstage hquiet =>
      rw [hstage] at hleg
      cases hleg
      rw [hquiet.barrier]
      have hphase := hhold.2
      exact hcourse.extend _ rfl rfl (hphase ▸ .rounding _ _) hhold
  | asked answer hstage hbarrier =>
      rw [hstage] at hleg
      cases hleg
      rw [hbarrier]
      exact hcourse.extend _ rfl rfl (.rounding _ _) hhold
  | @returned ending _ hstage =>
      rw [hstage] at hleg
      cases hleg
      cases ending with
      | completed => exact hcourse.extend _ rfl rfl (.reporting _) hhold
      | refused => exact hcourse.extend _ rfl rfl (.reporting _) hhold
      | crashed => exact hcourse.extend _ rfl rfl (.closing _) hhold
  | reported hstage hquiet =>
      rw [hstage] at hleg
      cases hleg
      rw [hquiet.barrier]
      exact hcourse.extend _ rfl rfl (.closing _) hhold
  | panicked hstage hcrash hquiet =>
      rw [hstage] at hleg
      cases hleg
      rw [hquiet.barrier]
      have hphase := hhold.2
      exact hcourse.extend _ rfl rfl (hphase ▸ .crashing hcrash) hhold
  | counted hstage hcrash hquiet =>
      rw [hstage] at hleg
      cases hleg
      rw [hquiet.barrier]
      have hphase := hhold.2
      exact hcourse.count _ _ (hphase ▸ .judging hcrash) hhold
  | last hstage =>
      rw [hstage] at hleg
      cases hleg with
      | judging hcrash => exact hcourse.extend _ rfl rfl (.retiring hcrash) hhold
  | notLast hstage =>
      rw [hstage] at hleg
      cases hleg with
      | judging hcrash => exact hcourse.extend _ rfl rfl (.arriving hcrash) hhold
  | left hstage hanswer =>
      rw [hstage] at hleg
      cases hleg with
      | retiring hcrash =>
          have hleft := hhold.leave
          cases hleft.1.symm.trans hanswer
          exact hcourse.extend _ rfl rfl (.retired hcrash) hleft.2
      | stopping hcrash =>
          have hleft := hhold.leave
          cases hleft.1.symm.trans hanswer
          exact hcourse.extend _ rfl rfl (.stopped hcrash) hleft.2
  | leaveRefused hstage hanswer =>
      -- Who holds a seat and is absent is not refused.
      rw [hstage] at hleg
      cases hleg with
      | retiring => cases hhold.leave.1.symm.trans hanswer
      | stopping => cases hhold.leave.1.symm.trans hanswer
  | advanced hstage hanswer =>
      rw [hstage] at hleg
      cases hleg with
      | arriving hcrash =>
          have hphase := hhold.2
          rcases hhold.arrive with ⟨_, hnext⟩ | ⟨hasleep, _⟩
          · exact hcourse.extend _ rfl rfl (hphase ▸ .pausing hcrash) hnext
          · cases hasleep.symm.trans hanswer
  | slept hstage hanswer =>
      rw [hstage] at hleg
      cases hleg with
      | arriving hcrash =>
          have hphase := hhold.2
          rcases hhold.arrive with ⟨hadvanced, _⟩ | ⟨_, hnext⟩
          · cases hadvanced.symm.trans hanswer
          · exact hcourse.extend _ rfl rfl (hphase ▸ .asleep hcrash) hnext
  | arriveRefused hstage hanswer =>
      rw [hstage] at hleg
      cases hleg with
      | arriving =>
          rcases hhold.arrive with ⟨hadvanced, _⟩ | ⟨hasleep, _⟩
          · cases hadvanced.symm.trans hanswer
          · cases hasleep.symm.trans hanswer
  | woke hstage hresumed =>
      rw [hstage] at hleg
      cases hleg with
      | asleep hcrash =>
          have hnext := (hhold.resume hresumed).2
          exact hcourse.extend [] rfl rfl (.pausing hcrash) hnext
  | paused hstage =>
      rw [hstage] at hleg
      cases hleg with
      | pausing hcrash => exact hcourse.extend [] rfl rfl (.checking hcrash) hhold
  | stopped hstage =>
      rw [hstage] at hleg
      cases hleg with
      | checking hcrash => exact hcourse.extend _ rfl rfl (.stopping hcrash) hhold
  | wentOn hstage =>
      rw [hstage] at hleg
      cases hleg with
      | checking hcrash =>
          -- Here alone a lap is over and joins the past.
          exact hcourse.turn _ hcrash rfl hhold
  | resigned hstage =>
      rw [hstage] at hleg
      cases hleg with
      | crashing hcrash =>
          have hleft := hhold.leave
          rw [hleft.1]
          exact hcourse.extend _ rfl rfl (.crashed hcrash) hleft.2
      | abandoning =>
          have hleft := hhold.leave
          rw [hleft.1]
          exact hcourse.extend _ rfl rfl .abandoned hleft.2

theorem OnCourse.abandon (h : OnCourse barrier worker entry deeds)
    (hstage : worker.stage = .ready) : OnCourse barrier worker.abandon entry deeds := by
  rcases h with ⟨past, done, latest, hold, hcourse⟩
  have hleg := hcourse.leg
  rw [hstage] at hleg
  cases hleg
  have hkept : OnCourse barrier worker.abandon entry (deeds ++ []) :=
    hcourse.extend [] rfl rfl .abandoning hcourse.hold_at
  rwa [List.append_nil] at hkept

theorem OnCourse.effect (h : OnCourse barrier worker entry deeds)
    {operation : Barrier.Operation} (heffect : Barrier.Effect barrier operation after)
    (hspares : operation.Spares barrier worker.participant) :
    OnCourse after worker entry deeds := by
  rcases h with ⟨past, done, latest, hold, hcourse⟩
  exact ⟨past, done, latest, hold,
    { hcourse with hold_at := hcourse.hold_at.effect heffect hspares }⟩

theorem OnCourse.other {other : Worker} (h : OnCourse floor.barrier other entry deeds)
    (hpassage : Passage worker floor moved later deed?)
    (hne : other.participant ≠ worker.participant) :
    OnCourse later.barrier other entry deeds := by
  rcases hpassage.effect with hsame | ⟨_, hcaller, heffect⟩
  · exact hsame ▸ h
  · exact h.effect heffect (Barrier.Operation.spares_of_caller? hcaller hne _)

end Worker

end BrokerProbe
