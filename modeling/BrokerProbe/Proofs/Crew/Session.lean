import BrokerProbe.Proofs.Crew.Inquiry
/-!
# Sessions

What a worker calls for its rounds: the reporter is started, the round entered
and left, the reporter told and stopped.  The calls of one round are a session.
Whichever way the round goes its session begins with a start and ends with a
stop, and the counts of a worker can be read off its calls.
-/

namespace BrokerProbe

namespace Worker

variable {World : Type}

inductive Call where
  | started (answer : Except Metric.ReporterError Unit)
  | entered
  | left (ending : Round.Ending)
  | reported (answer : Except Metric.ReporterError Unit)
  | stopped

namespace Call

def isStart : Call -> Bool
  | started _ => true
  | _ => false

def isFailedStart : Call -> Bool
  | started (.error _) => true
  | _ => false

def isEntry : Call -> Bool
  | entered => true
  | _ => false

def isRefusal : Call -> Bool
  | left (.refused _) => true
  | _ => false

def isPanic : Call -> Bool
  | left .crashed => true
  | _ => false

def isStop : Call -> Bool
  | stopped => true
  | _ => false

def isReporters : Call -> Bool
  | started _ => true
  | reported _ => true
  | stopped => true
  | _ => false

def isFailure (call : Call) : Bool :=
  call.isFailedStart || call.isRefusal

end Call

def calls (environment : Environment World) (worker : Worker) (floor : Floor World) :
    List Call :=
  match worker.stage with
  | .ready =>
      match (environment.reporter.start floor.world).1 with
      | .ok () => [.started (.ok ()), .entered]
      | .error error => [.started (.error error)]
  | .rounding (.done ending) _ => [.left ending]
  | .reporting _ => [.reported (environment.reporter.report floor.registry floor.world).1]
  | .closing _ => [.stopped]
  | _ => []

/--
The calls of a whole session, by how it closed.  The round is entered if the
start succeeded, and reported if it returned, whatever comes of the report.
-/
inductive Session : List Call -> Closing -> Prop where
  | unstarted (error : Metric.ReporterError) :
      Session [.started (.error error), .stopped] .unstarted
  | returned {ending : Round.Ending} (hcrash : (Closing.returned ending).isCrash = false)
      (answer : Except Metric.ReporterError Unit) :
      Session [.started (.ok ()), .entered, .left ending, .reported answer, .stopped]
        (.returned ending)
  | crashed : Session [.started (.ok ()), .entered, .left .crashed, .stopped] .crashed

inductive Within : Stage -> List Call -> Prop where
  | rounding (rest : Round.Asking Round.Ending) (detached : Array Metric.Window) :
      Within (.rounding rest detached) [.started (.ok ()), .entered]
  | reporting {ending : Round.Ending} (hcrash : (Closing.returned ending).isCrash = false) :
      Within (.reporting ending) [.started (.ok ()), .entered, .left ending]
  | closing {calls : List Call} {closing : Closing}
      (h : Session (calls ++ [.stopped]) closing) : Within (.closing closing) calls
  | between {stage : Stage} (h : stage.between = true) : Within stage []

def inSession (worker : Worker) : Bool :=
  !worker.stage.between

structure Sessions (worker : Worker) (past : List (List Call × Closing)) (now : List Call) :
    Prop where
  whole : forall entry, entry ∈ past -> Session entry.1 entry.2
  within : Within worker.stage now
  runs_eq : worker.runs = (past.flatMap Prod.fst ++ now).countP Call.isEntry

/-- Whether a worker can have made these calls, in sessions that closed in these ways. -/
def Called (worker : Worker) (calls : List Call) (closings : List Closing) : Prop :=
  exists past now, Sessions worker past now ∧ calls = past.flatMap Prod.fst ++ now ∧
    closings = past.map Prod.snd

variable {worker moved : Worker} {floor next : Floor World} {environment : Environment World}
variable {past : List (List Call × Closing)} {now calls : List Call}
variable {closings : List Closing} {closing : Closing} {deed? : Option Deed}

theorem called_seated (role : Role) (limit : Option Nat)
    (round : Nat -> Round.Asking Round.Ending) (aside : Option String) (participant : Nat) :
    (seated role limit round aside participant).Called [] [] :=
  ⟨[], [], ⟨by simp, .between rfl, rfl⟩, rfl, rfl⟩

theorem Within.eq_nil {stage : Stage} (h : Within stage now) (hbetween : stage.between = true) :
    now = [] := by
  cases h with
  | between => rfl
  | _ => cases hbetween

/-!
# One step
-/

theorem Passage.between (h : Passage worker floor moved next deed?)
    (hbetween : worker.stage.between = true) (hready : worker.stage ≠ .ready) :
    moved.stage.between = true ∧ Deed.closings deed?.toList = [] ∧ moved.runs = worker.runs := by
  cases h with
  | unstarted hstage => exact absurd hstage hready
  | started hstage => exact absurd hstage hready
  | asked _ hstage => simp [hstage, Stage.between] at hbetween
  | returned hstage => simp [hstage, Stage.between] at hbetween
  | reported hstage => simp [hstage, Stage.between] at hbetween
  | panicked hstage => simp [hstage, Stage.between] at hbetween
  | counted hstage => simp [hstage, Stage.between] at hbetween
  | resigned => exact ⟨rfl, closings_leave _, rfl⟩
  | _ => exact ⟨rfl, rfl, rfl⟩

theorem calls_of_between (environment : Environment World) (floor : Floor World)
    (hbetween : worker.stage.between = true) (hready : worker.stage ≠ .ready) :
    worker.calls environment floor = [] := by
  cases hstage : worker.stage with
  | ready => exact absurd hstage hready
  | rounding => simp [hstage, Stage.between] at hbetween
  | reporting => simp [hstage, Stage.between] at hbetween
  | closing => simp [hstage, Stage.between] at hbetween
  | _ => simp [calls, hstage]

inductive Goes (moved : Worker) (calls : List Call) : List Closing -> Prop where
  | within (h : Within moved.stage calls) : Goes moved calls []
  | stops {closing : Closing} (h : Session calls closing) (hbetween : moved.stage.between = true) :
      Goes moved calls [closing]

theorem goes_ready (hstage : worker.stage = .ready)
    (hstep : worker.step? environment floor = some (moved, next)) :
    Goes moved (worker.calls environment floor) [] ∧
      moved.runs = worker.runs + (worker.calls environment floor).countP Call.isEntry := by
  simp only [step?, hstage, Option.some.injEq, stepReady] at hstep
  simp only [calls, hstage]
  split at hstep
  · next error hanswer =>
    cases hstep
    rw [hanswer]
    exact ⟨.within (.closing (.unstarted error)), rfl⟩
  · next hanswer =>
    cases hstep
    rw [hanswer]
    exact ⟨.within (.rounding _ _), rfl⟩

theorem goes_round {rest : Round.Asking Round.Ending} {detached : Array Metric.Window}
    (h : Within worker.stage now) (hstage : worker.stage = .rounding rest detached)
    (hstep : worker.step? environment floor = some (moved, next)) :
    Goes moved (now ++ worker.calls environment floor) [] ∧
      moved.runs = worker.runs + (worker.calls environment floor).countP Call.isEntry := by
  rw [hstage] at h
  simp only [step?, hstage, Option.some.injEq] at hstep
  cases h with
  | between hbetween => cases hbetween
  | rounding =>
      cases rest with
      | ask question following =>
          simp only [stepRound, Prod.mk.injEq] at hstep
          rcases hstep with ⟨rfl, _⟩
          simp only [calls, hstage]
          exact ⟨.within (.rounding _ _), rfl⟩
      | done ending =>
          simp only [stepRound, Prod.mk.injEq] at hstep
          rcases hstep with ⟨rfl, _⟩
          simp only [calls, hstage]
          cases ending with
          | completed => exact ⟨.within (.reporting rfl), rfl⟩
          | refused => exact ⟨.within (.reporting rfl), rfl⟩
          | crashed => exact ⟨.within (.closing .crashed), rfl⟩

theorem goes_report {ending : Round.Ending} (h : Within worker.stage now)
    (hstage : worker.stage = .reporting ending)
    (hstep : worker.step? environment floor = some (moved, next)) :
    Goes moved (now ++ worker.calls environment floor) [] ∧
      moved.runs = worker.runs + (worker.calls environment floor).countP Call.isEntry := by
  rw [hstage] at h
  simp only [step?, hstage, Option.some.injEq, stepReport, Prod.mk.injEq] at hstep
  rcases hstep with ⟨rfl, _⟩
  simp only [calls, hstage]
  cases h with
  | between hbetween => cases hbetween
  | reporting hcrash => exact ⟨.within (.closing (.returned hcrash _)), rfl⟩

theorem runs_afterSession (worker : Worker) (closing : Closing) :
    (worker.afterSession closing).runs = worker.runs := by
  cases closing with
  | returned ending => cases ending <;> rfl
  | _ => rfl

theorem between_afterSession (worker : Worker) (closing : Closing) :
    (worker.afterSession closing).stage.between = true := by
  cases closing with
  | returned ending => cases ending <;> rfl
  | _ => rfl

theorem stepClose_fst (environment : Environment World) (worker : Worker) (floor : Floor World)
    (closing : Closing) :
    (worker.stepClose environment floor closing).1 = worker.afterSession closing := by
  simp only [stepClose]
  split <;> rfl

theorem goes_close (h : Within worker.stage now) (hstage : worker.stage = .closing closing)
    (hstep : worker.step? environment floor = some (moved, next)) :
    Goes moved (now ++ worker.calls environment floor) [closing] ∧
      moved.runs = worker.runs + (worker.calls environment floor).countP Call.isEntry := by
  rw [hstage] at h
  simp only [step?, hstage, Option.some.injEq] at hstep
  have hmoved := stepClose_fst environment worker floor closing
  rw [hstep] at hmoved
  simp only at hmoved
  simp only [calls, hstage, hmoved]
  cases h with
  | between hbetween => cases hbetween
  | closing hsession =>
      exact ⟨.stops hsession (between_afterSession _ _), runs_afterSession _ _⟩

theorem Within.step (h : Within worker.stage now)
    (hstep : worker.step? environment floor = some (moved, next)) :
    Goes moved (now ++ worker.calls environment floor)
        (Deed.closings (worker.deed? floor).toList) ∧
      moved.runs = worker.runs + (worker.calls environment floor).countP Call.isEntry := by
  by_cases hbetween : worker.stage.between = true
  · obtain rfl := h.eq_nil hbetween
    by_cases hready : worker.stage = .ready
    · simp only [deed?, hready]
      exact goes_ready hready hstep
    · rcases (passage_of_step hstep).between hbetween hready with ⟨hafter, hclosings, hruns⟩
      rw [calls_of_between environment floor hbetween hready, hclosings, hruns]
      exact ⟨.within (.between hafter), rfl⟩
  · cases hstage : worker.stage with
    | rounding rest detached =>
        simp only [deed?, hstage]
        exact goes_round h hstage hstep
    | reporting ending =>
        simp only [deed?, hstage]
        exact goes_report h hstage hstep
    | closing closing =>
        simp only [deed?, hstage]
        exact goes_close h hstage hstep
    | _ => simp [hstage, Stage.between] at hbetween

theorem Called.step (h : worker.Called calls closings)
    (hstep : worker.step? environment floor = some (moved, next)) :
    moved.Called (calls ++ worker.calls environment floor)
      (closings ++ Deed.closings (worker.deed? floor).toList) := by
  rcases h with ⟨past, now, hsessions, rfl, rfl⟩
  rcases hsessions.within.step hstep with ⟨hgoes, hruns⟩
  rw [hsessions.runs_eq, <- List.countP_append] at hruns
  generalize Deed.closings (worker.deed? floor).toList = more at hgoes
  cases hgoes with
  | within hwithin =>
      refine ⟨past, now ++ worker.calls environment floor, ⟨hsessions.whole, hwithin, ?_⟩,
        List.append_assoc _ _ _, List.append_nil _⟩
      rw [hruns, List.append_assoc]
  | @stops closing hsession hbetween =>
      refine ⟨past ++ [(now ++ worker.calls environment floor, closing)], [],
        ⟨?_, .between hbetween, ?_⟩, by simp, by simp⟩
      · intro entry hentry
        rcases List.mem_append.mp hentry with hold | hlast
        · exact hsessions.whole entry hold
        · rw [List.mem_singleton.mp hlast]
          exact hsession
      · rw [hruns]
        simp

theorem Called.abandon (h : worker.Called calls closings) (hstage : worker.stage = .ready) :
    worker.abandon.Called calls closings := by
  rcases h with ⟨past, now, hsessions, hcalls, hclosings⟩
  obtain rfl := hsessions.within.eq_nil (by rw [hstage]; rfl)
  exact ⟨past, [], ⟨hsessions.whole, .between rfl, hsessions.runs_eq⟩, hcalls, hclosings⟩

/-!
# Figures
-/

theorem Session.countP_isStart (h : Session calls closing) : calls.countP Call.isStart = 1 := by
  cases h <;> rfl

theorem Session.countP_isStop (h : Session calls closing) : calls.countP Call.isStop = 1 := by
  cases h <;> rfl

theorem Session.countP_isPanic (h : Session calls closing) :
    calls.countP Call.isPanic = closing.isCrash.toNat := by
  cases h with
  | unstarted => rfl
  | crashed => rfl
  | @returned ending hcrash answer =>
      cases ending with
      | crashed => cases hcrash
      | _ => rfl

theorem Session.countP_isFailure (h : Session calls closing) :
    calls.countP Call.isFailure = closing.isFailure.toNat := by
  cases h with
  | unstarted => rfl
  | crashed => rfl
  | @returned ending hcrash answer => cases ending <;> rfl

theorem countP_isFailure (calls : List Call) :
    calls.countP Call.isFailure =
      calls.countP Call.isFailedStart + calls.countP Call.isRefusal := by
  induction calls with
  | nil => rfl
  | cons call rest ih =>
      have hapart : (if call.isFailure = true then 1 else 0) =
          (if call.isFailedStart = true then 1 else 0) +
            (if call.isRefusal = true then 1 else 0) := by
        cases call with
        | started answer => cases answer <;> rfl
        | left ending => cases ending <;> rfl
        | _ => rfl
      rw [List.countP_cons, List.countP_cons, List.countP_cons, ih, hapart]
      exact Nat.add_add_add_comm _ _ _ _

theorem Within.starts_eq {stage : Stage} (h : Within stage now) :
    now.countP Call.isStart = (!stage.between).toNat ∧ now.countP Call.isStop = 0 := by
  cases h with
  | rounding => exact ⟨rfl, rfl⟩
  | reporting => exact ⟨rfl, rfl⟩
  | between hbetween => simp [hbetween]
  | closing hsession =>
      have hstart := hsession.countP_isStart
      have hstop := hsession.countP_isStop
      simp only [List.countP_append, List.countP_singleton, Call.isStart, Call.isStop, if_true,
        Bool.false_eq_true, if_false, Nat.add_zero, Nat.add_eq_right] at hstart hstop
      exact ⟨hstart, hstop⟩

theorem Sessions.length_past (h : Sessions worker past now) :
    (past.flatMap Prod.fst).countP Call.isStart = past.length ∧
      (past.flatMap Prod.fst).countP Call.isStop = past.length := by
  have hlength : past.length = past.countP fun _ => true := by simp
  rw [hlength]
  constructor
  · exact countP_flatMap_of_toNat fun entry hentry => (h.whole entry hentry).countP_isStart
  · exact countP_flatMap_of_toNat fun entry hentry => (h.whole entry hentry).countP_isStop

theorem Sessions.starts_eq (h : Sessions worker past now) :
    (past.flatMap Prod.fst ++ now).countP Call.isStart =
      (past.flatMap Prod.fst ++ now).countP Call.isStop + worker.inSession.toNat := by
  rcases h.length_past with ⟨hstarts, hstops⟩
  rcases h.within.starts_eq with ⟨hstart, hstop⟩
  rw [List.countP_append, List.countP_append, hstarts, hstops, hstart, hstop, Nat.add_zero]
  rfl

theorem Sessions.figures (h : Sessions worker past now) (hbetween : worker.inSession = false) :
    (past.flatMap Prod.fst ++ now).countP Call.isStart = (past.map Prod.snd).length ∧
      (past.flatMap Prod.fst ++ now).countP Call.isPanic =
        (past.map Prod.snd).countP Closing.isCrash ∧
      (past.flatMap Prod.fst ++ now).countP Call.isFailure =
        (past.map Prod.snd).countP Closing.isFailure := by
  obtain rfl := h.within.eq_nil (by simpa [inSession] using hbetween)
  rw [List.append_nil, List.countP_map, List.countP_map, List.length_map]
  refine ⟨h.length_past.1, ?_, ?_⟩
  · exact countP_flatMap_of_toNat fun entry hentry => (h.whole entry hentry).countP_isPanic
  · exact countP_flatMap_of_toNat fun entry hentry => (h.whole entry hentry).countP_isFailure

/-!
# Counts
-/

variable {barrier : Barrier} {entry : Nat} {deeds latest : List Deed} {hold : Barrier.Hold}

theorem Leg.closings_eq {phase : Nat} {stage : Stage} {done : List Closing}
    (h : Leg worker phase stage done latest hold) :
    (forall closing, closing ∈ done -> closing.isCrash = false) ∧
      (Deed.closings latest = done ∨
        done = [] ∧ exists closing, closing.isCrash = true ∧ Deed.closings latest = [closing]) := by
  cases h with
  | crashing hcrash => exact ⟨by simp, Or.inr ⟨rfl, _, hcrash, rfl⟩⟩
  | crashed hcrash => exact ⟨by simp, Or.inr ⟨rfl, _, hcrash, rfl⟩⟩
  | judging hcrash => exact ⟨by simpa using hcrash, Or.inl rfl⟩
  | retiring hcrash => exact ⟨by simpa using hcrash, Or.inl rfl⟩
  | retired hcrash => exact ⟨by simpa using hcrash, Or.inl rfl⟩
  | arriving hcrash => exact ⟨by simpa using hcrash, Or.inl rfl⟩
  | asleep hcrash => exact ⟨by simpa using hcrash, Or.inl rfl⟩
  | pausing hcrash => exact ⟨by simpa using hcrash, Or.inl rfl⟩
  | checking hcrash => exact ⟨by simpa using hcrash, Or.inl rfl⟩
  | stopping hcrash => exact ⟨by simpa using hcrash, Or.inl rfl⟩
  | stopped hcrash => exact ⟨by simpa using hcrash, Or.inl rfl⟩
  | _ => exact ⟨by simp, Or.inl rfl⟩

theorem OnCourse.closings_eq (h : OnCourse barrier worker entry deeds) :
    exists counted, (forall closing, closing ∈ counted -> closing.isCrash = false) ∧
      worker.rounds = counted.length ∧
      worker.failedRounds = counted.countP Closing.isFailure ∧
      (Deed.closings deeds = counted ∨
        exists closing, closing.isCrash = true ∧ Deed.closings deeds = counted ++ [closing]) := by
  rcases h with ⟨past, done, latest, hold, hcourse⟩
  rcases hcourse.leg.closings_eq with ⟨hdone, hclosings⟩
  refine ⟨past ++ done, ?_, hcourse.rounds_eq, hcourse.failedRounds_eq, ?_⟩
  · intro closing hclosing
    rcases List.mem_append.mp hclosing with hpast | hlast
    · exact hcourse.uncrashed closing hpast
    · exact hdone closing hlast
  · rw [hcourse.closings_eq]
    rcases hclosings with hsame | ⟨rfl, closing, hcrash, hlast⟩
    · exact Or.inl (by rw [hsame])
    · exact Or.inr ⟨closing, hcrash, by rw [hlast, List.append_nil]⟩

theorem countP_isCrash_eq_zero (h : forall closing, closing ∈ closings -> closing.isCrash = false) :
    closings.countP Closing.isCrash = 0 := by
  rw [List.countP_eq_zero]
  intro closing hclosing
  simp [h closing hclosing]

theorem OnCourse.rounds_eq (h : OnCourse barrier worker entry deeds) :
    worker.rounds + (Deed.closings deeds).countP Closing.isCrash =
        (Deed.closings deeds).length ∧
      worker.failedRounds = (Deed.closings deeds).countP Closing.isFailure ∧
      worker.failedRounds <= worker.rounds := by
  rcases h.closings_eq with ⟨counted, huncrashed, hrounds, hfailed, hclosings⟩
  have hnone := countP_isCrash_eq_zero huncrashed
  have hle := List.countP_le_length (p := Closing.isFailure) (l := counted)
  rw [hrounds, hfailed]
  rcases hclosings with hsame | ⟨closing, hcrash, hlast⟩
  · rw [hsame, hnone]
    exact ⟨rfl, rfl, hle⟩
  · rw [hlast, List.countP_append, List.countP_append, hnone, List.countP_singleton,
      List.countP_singleton, if_pos hcrash, Closing.isFailure_of_isCrash hcrash]
    exact ⟨by simp, rfl, hle⟩

theorem OnCourse.uncrashed (h : OnCourse barrier worker entry deeds) {front : List Closing}
    (hclosings : Deed.closings deeds = front ++ [closing]) {other : Closing}
    (hother : other ∈ front) : other.isCrash = false := by
  rcases h.closings_eq with ⟨counted, huncrashed, _, _, hsame | ⟨last, _, hlast⟩⟩
  · apply huncrashed
    rw [<- hsame, hclosings]
    exact List.mem_append_left _ hother
  · apply huncrashed
    rw [hlast] at hclosings
    rwa [(List.append_inj' hclosings rfl).1]

theorem OnCourse.crashes_eq (h : OnCourse barrier worker entry deeds) {verdict : Verdict}
    (hverdict : worker.verdict? = some verdict) :
    (Deed.closings deeds).countP Closing.isCrash = (decide (verdict = .panicked)).toNat := by
  rcases h with ⟨past, done, latest, hold, hcourse⟩
  have hpast := countP_isCrash_eq_zero hcourse.uncrashed
  have hleg := hcourse.leg
  rw [hcourse.closings_eq, List.countP_append, hpast, Nat.zero_add]
  cases hstage : worker.stage with
  | ended other =>
      simp only [verdict?, hstage, Option.some.injEq] at hverdict
      rw [hstage, hverdict] at hleg
      cases hleg with
      | @retired closing hcrash =>
          show [closing].countP Closing.isCrash = 0
          simp [hcrash]
      | @stopped closing hcrash =>
          show [closing].countP Closing.isCrash = 0
          simp [hcrash]
      | @crashed closing hcrash =>
          show [closing].countP Closing.isCrash = 1
          simp [hcrash]
      | abandoned => rfl
  | _ => simp [verdict?, hstage] at hverdict

theorem OnCourse.summary_eq (h : OnCourse barrier worker entry deeds) {summary : Summary}
    (hverdict : worker.verdict? = some (.finished summary)) :
    summary.rounds = worker.rounds ∧ summary.failedRounds = worker.failedRounds := by
  rcases h with ⟨past, done, latest, hold, hcourse⟩
  have hleg := hcourse.leg
  cases hstage : worker.stage with
  | ended other =>
      simp only [verdict?, hstage, Option.some.injEq] at hverdict
      rw [hstage, hverdict] at hleg
      cases hleg with
      | retired => exact ⟨rfl, rfl⟩
      | stopped => exact ⟨rfl, rfl⟩
  | _ => simp [verdict?, hstage] at hverdict

/-- What the counts of a worker say about its calls. -/
structure Tallied (worker : Worker) (calls : List Call) : Prop where
  starts_eq : calls.countP Call.isStart = calls.countP Call.isStop + worker.inSession.toNat
  /-- The rounds counted are the starts, without a round that panicked. -/
  rounds_eq : worker.inSession = false ->
    worker.rounds + calls.countP Call.isPanic = calls.countP Call.isStart
  failedRounds_eq : worker.inSession = false ->
    worker.failedRounds = calls.countP Call.isFailedStart + calls.countP Call.isRefusal
  failedRounds_le : worker.failedRounds <= worker.rounds
  inSession_eq : worker.hasEnded = true -> worker.inSession = false
  panics_eq : forall verdict, worker.verdict? = some verdict ->
    calls.countP Call.isPanic = (decide (verdict = .panicked)).toNat
  summary_eq : forall summary, worker.verdict? = some (.finished summary) ->
    summary.rounds = worker.rounds ∧ summary.failedRounds = worker.failedRounds

theorem inSession_of_hasEnded (h : worker.hasEnded = true) : worker.inSession = false := by
  cases hstage : worker.stage with
  | ended => simp [inSession, hstage, Stage.between]
  | _ => simp [hasEnded, verdict?, hstage] at h

theorem OnCourse.tallied (h : OnCourse barrier worker entry deeds)
    (hcalled : worker.Called calls (Deed.closings deeds)) : Tallied worker calls := by
  rcases hcalled with ⟨past, now, hsessions, rfl, hclosings⟩
  rcases h.rounds_eq with ⟨hrounds, hfailed, hle⟩
  refine ⟨hsessions.starts_eq, ?_, ?_, hle, inSession_of_hasEnded, ?_,
    fun summary => h.summary_eq⟩
  · intro hbetween
    rcases hsessions.figures hbetween with ⟨hstarts, hpanics, _⟩
    rw [hstarts, hpanics, <- hclosings, hrounds]
  · intro hbetween
    rcases hsessions.figures hbetween with ⟨_, _, hfailures⟩
    rw [<- countP_isFailure, hfailures, <- hclosings, hfailed]
  · intro verdict hverdict
    have hended : worker.hasEnded = true := by
      rw [hasEnded, hverdict]
      rfl
    rcases hsessions.figures (inSession_of_hasEnded hended) with ⟨_, hpanics, _⟩
    rw [hpanics, <- hclosings, h.crashes_eq hverdict]

end Worker

end BrokerProbe
