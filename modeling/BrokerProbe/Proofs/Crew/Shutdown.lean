import BrokerProbe.Proofs.Crew.LockStep
import BrokerProbe.Proofs.Crew.Muster
import BrokerProbe.Proofs.Crew.Progress
import BrokerProbe.Proofs.Worker.Limit
/-!
# Shutdown

Once the flag is up nobody begins another lap.  Who is in the lap of the running
phase ends it, and leaves at the test after the round or at the one after the
pause; who is still in the lap before, asleep or pausing, leaves at the latter.
So the workers differ by one round at most, and nobody is left asleep.
-/

namespace BrokerProbe

namespace Worker

variable {worker : Worker} {barrier : Barrier} {stage : Stage} {entry phase : Nat}
variable {deeds latest : List Deed} {past done : List Closing} {hold : Barrier.Hold}

def Deed.goesOn : Deed -> Bool
  | checked stop => !stop
  | _ => false

theorem Deed.countP_goesOn_laps (phase : Nat) (past : List Closing) :
    (laps phase past).countP goesOn = past.length := by
  induction past generalizing phase with
  | nil => rfl
  | cons closing rest ih =>
      rw [laps, List.countP_append, ih, List.length_cons, Nat.add_comm]
      rfl

theorem Leg.countP_goesOn (h : Leg worker phase stage done latest hold) :
    latest.countP Deed.goesOn = 0 := by
  cases h <;> rfl

theorem Course.length_past (h : Course barrier worker entry deeds past done latest hold) :
    past.length = deeds.countP Deed.goesOn := by
  have hfirst : Deed.goesOn (.joined entry) = false := rfl
  rw [h.deeds_eq, List.cons_append, List.countP_cons_of_neg (by simp [hfirst]),
    List.countP_append, Deed.countP_goesOn_laps, h.leg.countP_goesOn]
  rfl

theorem Leg.hold_eq (h : Leg worker phase stage done latest hold) :
    hold = .working phase ∨ hold = .waiting phase ∨ hold = .working (phase + 1) ∨
      exists last, hold = .gone last := by
  cases h with
  | retired => exact Or.inr (Or.inr (Or.inr ⟨_, rfl⟩))
  | asleep => exact Or.inr (Or.inl rfl)
  | pausing => exact Or.inr (Or.inr (Or.inl rfl))
  | checking => exact Or.inr (Or.inr (Or.inl rfl))
  | stopping => exact Or.inr (Or.inr (Or.inl rfl))
  | stopped => exact Or.inr (Or.inr (Or.inr ⟨_, rfl⟩))
  | crashed => exact Or.inr (Or.inr (Or.inr ⟨_, rfl⟩))
  | abandoned => exact Or.inr (Or.inr (Or.inr ⟨_, rfl⟩))
  | _ => exact Or.inl rfl

theorem OnCourse.phase_of_standing (h : OnCourse barrier worker entry deeds)
    (hsome : (barrier.standing worker.participant).isSome = true) :
    barrier.phase = entry + deeds.countP Deed.goesOn ∨
      barrier.phase = entry + deeds.countP Deed.goesOn + 1 := by
  rcases h with ⟨past, done, latest, hold, hcourse⟩
  have hhold := hcourse.hold_at
  rw [<- hcourse.length_past]
  rcases hcourse.leg.hold_eq with rfl | rfl | rfl | ⟨last, rfl⟩
  · exact Or.inl hhold.2
  · rcases hhold.2 with ⟨_, hrunning⟩ | ⟨_, hover⟩
    · exact Or.inl hrunning
    · exact Or.inr hover
  · exact Or.inr hhold.2
  · rw [hhold.1] at hsome
    cases hsome

theorem Leg.gone_of_left {last : Nat} (h : Leg worker phase stage done latest hold)
    (hleft : Deed.left last ∈ latest) : exists last, hold = .gone last := by
  cases h with
  | retired => exact ⟨_, rfl⟩
  | stopped => exact ⟨_, rfl⟩
  | crashed => exact ⟨_, rfl⟩
  | abandoned => exact ⟨_, rfl⟩
  | _ => simp at hleft

theorem OnCourse.left_not_mem (h : OnCourse barrier worker entry deeds)
    (hsome : (barrier.standing worker.participant).isSome = true) (last : Nat) :
    Deed.left last ∉ deeds := by
  rcases h with ⟨past, done, latest, hold, hcourse⟩
  intro hmem
  rcases hcourse.mem_deeds hmem with heq | ⟨lapPhase, closing, hlap⟩ | hlatest
  · cases heq
  · simp [Deed.lap] at hlap
  · rcases hcourse.leg.gone_of_left hlatest with ⟨last, rfl⟩
    rw [hcourse.hold_at.1] at hsome
    cases hsome

theorem Course.mem_latest (h : Course barrier worker entry deeds past done latest hold)
    {deed : Deed} (hdeed : deed = .judged true ∨ deed = .checked true) (hmem : deed ∈ deeds) :
    deed ∈ latest := by
  rcases h.mem_deeds hmem with rfl | ⟨lapPhase, closing, hlap⟩ | hlatest
  · rcases hdeed with heq | heq
    · cases heq
    · cases heq
  · rcases hdeed with rfl | rfl
    · simp [Deed.lap] at hlap
    · simp [Deed.lap] at hlap
  · exact hlatest

theorem OnCourse.exists_summary (h : OnCourse barrier worker entry deeds)
    (hended : worker.hasEnded = true) (hkept : worker.isAbandoned = false)
    (huncrashed : forall closing, closing ∈ Deed.closings deeds -> closing.isCrash = false) :
    exists last, Deed.left last ∈ deeds ∧
      worker.verdict? = some (.finished (worker.summary last)) ∧
      worker.rounds = deeds.countP Deed.goesOn + 1 ∧
      (Deed.checked true ∈ deeds ∧ Deed.judged true ∉ deeds ∧ last = entry + worker.rounds ∨
        Deed.judged true ∈ deeds ∧ Deed.checked true ∉ deeds ∧
          last + 1 = entry + worker.rounds) := by
  rcases h with ⟨past, done, latest, hold, hcourse⟩
  have hleg := hcourse.leg
  have hrounds := hcourse.rounds_eq
  have hchecked := hcourse.mem_latest (Or.inr rfl)
  have hjudged := hcourse.mem_latest (Or.inl rfl)
  have hlatest {deed : Deed} (hmem : deed ∈ latest) : deed ∈ deeds := by
    rw [hcourse.deeds_eq]
    exact List.mem_append_right _ hmem
  rw [<- hcourse.length_past]
  -- Of the legs that end, one went out by the limit and one by the flag.
  cases hstage : worker.stage with
  | ended verdict =>
      rw [hstage] at hleg
      simp only [verdict?, hstage]
      cases hleg with
      | retired =>
          rw [List.length_append] at hrounds
          refine ⟨_, hlatest (by simp), rfl, hrounds, Or.inr ⟨hlatest (by simp), ?_, ?_⟩⟩
          · intro hmem
            simpa using hchecked hmem
          · rw [hrounds]
            rfl
      | stopped =>
          rw [List.length_append] at hrounds
          refine ⟨_, hlatest (by simp), rfl, hrounds, Or.inl ⟨hlatest (by simp), ?_, ?_⟩⟩
          · intro hmem
            simpa using hjudged hmem
          · rw [hrounds]
            rfl
      | @crashed closing hcrash =>
          have hlast : closing ∈ Deed.closings deeds := by
            rw [hcourse.closings_eq]
            exact List.mem_append_right _ (List.mem_singleton_self closing)
          rw [huncrashed closing hlast] at hcrash
          cases hcrash
      | abandoned => simp [isAbandoned, hstage] at hkept
  | _ => simp [hasEnded, verdict?, hstage] at hended

theorem OnCourse.length_began_le_add_one (h : OnCourse barrier worker entry deeds) :
    deeds.countP Deed.goesOn <= (deeds.filterMap Deed.began?).length ∧
      (deeds.filterMap Deed.began?).length <= deeds.countP Deed.goesOn + 1 := by
  rcases h with ⟨past, done, latest, hold, hcourse⟩
  rw [hcourse.length_began, hcourse.length_past]
  rcases hcourse.leg.began?_latest with hnone | hone
  · rw [hnone]
    exact ⟨Nat.le_refl _, Nat.le_succ _⟩
  · rw [hone]
    exact ⟨Nat.le_succ _, Nat.le_refl _⟩

end Worker

namespace Record

open Worker (Deed OnCourse)

variable {World : Type} {environment : Environment World}
variable {instant record next : Record World} {recruits : List Recruit}

def Late (phase : Nat) (deed : Deed) : Prop :=
  deed.goesOn = false ∧ forall last, deed = .left last -> phase <= last

/-- What holds of a record from an instant on at which the flag was up. -/
structure Since (instant record : Record World) : Prop where
  stopping : record.crew.floor.stopping = true
  phase_le : instant.crew.floor.barrier.phase <= record.crew.floor.barrier.phase
  phase_lt : record.crew.floor.barrier.seats = [] -> instant.crew.floor.barrier.seats ≠ [] ->
    instant.crew.floor.barrier.phase < record.crew.floor.barrier.phase
  standing : forall participant,
    (record.crew.floor.barrier.standing participant).isSome = true ->
    (instant.crew.floor.barrier.standing participant).isSome = true
  participants : record.crew.workers.map Worker.participant =
    instant.crew.workers.map Worker.participant
  log : exists more, record.log = instant.log ++ more ∧
    forall index deed, (index, deed) ∈ more -> Late instant.crew.floor.barrier.phase deed

theorem since_refl (hup : instant.crew.floor.stopping = true) : Since instant instant where
  stopping := hup
  phase_le := Nat.le_refl _
  phase_lt := by
    intro hempty hseats
    exact absurd hempty hseats
  standing := fun _ hsome => hsome
  participants := rfl
  log := ⟨[], (List.append_nil _).symm, fun _ _ hdeed => absurd hdeed List.not_mem_nil⟩

theorem late_of_fits {floor : Floor World} {phase : Nat} {deed : Deed} (hfits : deed.Fits floor)
    (hup : floor.stopping = true) (hle : phase <= floor.barrier.phase) : Late phase deed := by
  constructor
  · cases deed with
    | checked stop =>
        have hstop : stop = true := hfits.trans hup
        rw [hstop]
        rfl
    | _ => rfl
  · intro last heq
    subst heq
    exact hle.trans (Nat.le_of_eq hfits.symm)

theorem Since.move (h : Since instant record) {index : Nat}
    (hmove : record.move? environment index = some next) : Since instant next := by
  have hact : record.act? environment (.move index) = some next := hmove
  have hlog := log_act hact
  rcases move?_eq_some hmove with ⟨worker, moved, floor, hworker, hstep, rfl⟩
  have hpassage := Worker.passage_of_step hstep
  refine ⟨hpassage.stopping h.stopping, ?_, ?_, ?_, ?_, ?_⟩
  · rcases hpassage.phase_eq with hsame | ⟨_, _, hnext⟩
    · rw [hsame]
      exact h.phase_le
    · rw [hnext]
      exact Nat.le_succ_of_le h.phase_le
  · intro hempty hseats
    rcases hpassage.phase_eq with hsame | ⟨_, _, hnext⟩
    · rw [hsame]
      apply h.phase_lt _ hseats
      by_contra hne
      exact hpassage.seats_ne_nil hsame hne hempty
    · rw [hnext]
      exact Nat.lt_succ_of_le h.phase_le
  · intro participant hsome
    exact h.standing participant (hpassage.isSome_standing hsome)
  · rw [<- h.participants]
    exact map_set_eq Worker.participant hworker hpassage.participant_eq
  · rcases h.log with ⟨more, hmore, hlate⟩
    rcases hlog with hsame | ⟨other, deed, hfits, hnew⟩
    · exact ⟨more, hsame.trans hmore, hlate⟩
    · refine ⟨more ++ [(other, deed)], ?_, ?_⟩
      · rw [hnew, hmore, List.append_assoc]
      · intro last done hdone
        rcases List.mem_append.mp hdone with hold | hlast
        · exact hlate last done hold
        · cases List.mem_singleton.mp hlast
          exact late_of_fits hfits h.stopping h.phase_le

theorem Since.exists_more (h : Since instant record) (index : Nat) :
    exists more, record.deeds index = instant.deeds index ++ more ∧
      forall deed, deed ∈ more -> Late instant.crew.floor.barrier.phase deed := by
  rcases h.log with ⟨more, hlog, hlate⟩
  refine ⟨entriesOf more index, ?_, ?_⟩
  · rw [deeds, deeds, hlog, entriesOf_append]
  · intro deed hdeed
    exact hlate index deed (mem_entriesOf.mp hdeed)

theorem Since.countP_goesOn (h : Since instant record) (index : Nat) :
    (record.deeds index).countP Deed.goesOn = (instant.deeds index).countP Deed.goesOn := by
  rcases h.exists_more index with ⟨more, heq, hlate⟩
  have hnone : more.countP Deed.goesOn = 0 := by
    apply List.countP_eq_zero.mpr
    intro deed hdeed
    simp [(hlate deed hdeed).1]
  rw [heq, List.countP_append, hnone, Nat.add_zero]

theorem Since.exists_worker (h : Since instant record) {index : Nat} {worker : Worker}
    (hworker : record.crew.workers[index]? = some worker) :
    exists old, instant.crew.workers[index]? = some old ∧
      old.participant = worker.participant := by
  have hsame := congrArg (fun participants => participants[index]?) h.participants
  simp only [List.getElem?_map, hworker, Option.map_some] at hsame
  exact Option.map_eq_some_iff.mp hsame.symm

theorem Since.phase_eq (h : Since instant record) (hinstant : Mustered recruits instant)
    {index : Nat} {worker : Worker} (hworker : record.crew.workers[index]? = some worker)
    (hsome : (instant.crew.floor.barrier.standing worker.participant).isSome = true) :
    instant.crew.floor.barrier.phase = (record.deeds index).countP Deed.goesOn ∨
      instant.crew.floor.barrier.phase = (record.deeds index).countP Deed.goesOn + 1 := by
  rcases h.exists_worker hworker with ⟨old, hold, hsame⟩
  rw [<- hsame] at hsome
  have hphase := (hinstant.course hold).phase_of_standing hsome
  rwa [Nat.zero_add, <- h.countP_goesOn index] at hphase

theorem Since.phase_le_of_seats (h : Since instant record)
    (hinstant : Mustered recruits instant) (hrecord : Mustered recruits record)
    (hseats : record.crew.floor.barrier.seats ≠ []) :
    record.crew.floor.barrier.phase <= instant.crew.floor.barrier.phase + 1 := by
  rcases List.exists_mem_of_ne_nil _ hseats with ⟨seat, hseat⟩
  rcases hrecord.account.exists_owner hseat with ⟨index, worker, hworker, hstanding⟩
  have hsome : (record.crew.floor.barrier.standing worker.participant).isSome = true := by
    rw [hstanding]
    rfl
  -- The worker has not changed its lap, so both phases are at most one past it.
  have hbefore := h.phase_eq hinstant hworker (h.standing _ hsome)
  have hnow := (hrecord.course hworker).phase_of_standing hsome
  omega

structure Shut (recruits : List Recruit) (instant record : Record World) : Prop
    extends Since instant record where
  mustered : Mustered recruits record
  phase_le_add_two : record.crew.floor.barrier.phase <= instant.crew.floor.barrier.phase + 2

theorem Shut.move (h : Shut recruits instant record) (hinstant : Mustered recruits instant)
    {index : Nat} (hmove : record.move? environment index = some next) :
    Shut recruits instant next := by
  refine ⟨h.toSince.move hmove, h.mustered.move hmove, ?_⟩
  rcases move?_eq_some hmove with ⟨worker, moved, floor, _, hstep, rfl⟩
  rcases (Worker.passage_of_step hstep).phase_eq with hsame | ⟨_, hseats, hnext⟩
  · rw [hsame]
    exact h.phase_le_add_two
  · rw [hnext]
    exact Nat.succ_le_succ (h.phase_le_of_seats hinstant h.mustered hseats)

theorem Shut.run (h : Shut recruits instant record) (hinstant : Mustered recruits instant)
    {indices : List Nat} (hrun : record.run? environment (indices.map .move) = some next) :
    Shut recruits instant next := by
  apply run?_keeps _ h hrun
  intro first second act hact hshut hmove
  rcases List.mem_map.mp hact with ⟨index, _, rfl⟩
  exact hshut.move hinstant hmove

/-!
# How a crew is shut down
-/

theorem Shut.length_starts_le (h : Shut recruits instant record)
    (hinstant : Mustered recruits instant) {index : Nat} {worker : Worker}
    (hworker : record.crew.workers[index]? = some worker) :
    (record.starts index).length <= (instant.starts index).length + 1 := by
  rcases h.exists_worker hworker with ⟨old, hold, _⟩
  have hnow := (h.mustered.course hworker).length_began_le_add_one.2
  have hbefore := (hinstant.course hold).length_began_le_add_one.1
  rw [h.countP_goesOn index] at hnow
  exact Nat.le_trans hnow (Nat.succ_le_succ hbefore)

def Evenly (record : Record World) (phase index : Nat) (summary : Worker.Summary) : Prop :=
  0 < summary.rounds ∧ (summary.rounds = phase ∨ summary.rounds = phase + 1) ∧
    (summary.finalPhase = phase ∨ summary.finalPhase = phase + 1) ∧
    ((index, .checked true) ∈ record.log ∧ (index, .judged true) ∉ record.log ∧
        summary.finalPhase = summary.rounds ∨
      (index, .judged true) ∈ record.log ∧ (index, .checked true) ∉ record.log ∧
        summary.finalPhase = summary.rounds - 1)

theorem Shut.exists_summary (h : Shut recruits instant record)
    (hinstant : Mustered recruits instant) (hended : record.crew.allEnded = true)
    {index : Nat} {worker : Worker} (hworker : record.crew.workers[index]? = some worker)
    (hsome : (instant.crew.floor.barrier.standing worker.participant).isSome = true)
    (huncrashed : forall closing, closing ∈ Deed.closings (record.deeds index) ->
      closing.isCrash = false) :
    exists summary, worker.verdict? = some (.finished summary) ∧
      record.Evenly instant.crew.floor.barrier.phase index summary := by
  have hmem := List.mem_of_getElem? hworker
  rcases (h.mustered.course hworker).exists_summary (List.all_eq_true.mp hended worker hmem)
    (h.mustered.kept worker hmem) huncrashed with ⟨last, hleft, hverdict, hrounds, htest⟩
  have hphase := h.phase_eq hinstant hworker hsome
  -- The worker left after the instant, and so not in an earlier phase.
  have hlate : instant.crew.floor.barrier.phase <= last := by
    rcases h.exists_worker hworker with ⟨old, hold, hsame⟩
    rcases h.exists_more index with ⟨more, heq, hmore⟩
    rw [heq] at hleft
    rcases List.mem_append.mp hleft with hbefore | hafter
    · rw [<- hsame] at hsome
      exact absurd hbefore ((hinstant.course hold).left_not_mem hsome last)
    · exact (hmore _ hafter).2 last rfl
  refine ⟨worker.summary last, hverdict, ?_⟩
  simp only [Evenly, Worker.summary, <- mem_entriesOf]
  simp only [deeds] at htest hrounds hphase
  rcases htest with ⟨hchecked, hnot, hlast⟩ | ⟨hjudged, hnot, hlast⟩
  · refine ⟨by omega, by omega, by omega, Or.inl ⟨hchecked, hnot, by omega⟩⟩
  · refine ⟨by omega, by omega, by omega, Or.inr ⟨hjudged, hnot, by omega⟩⟩

/--
What becomes of a crew from an instant on at which it is asked to stop.  It can
move until all have ended, and not forever.  Those who were registered end with
as many rounds as the phase says, or with one more, and if there were any the
barrier closes one phase later or two.
-/
structure EvenHanded (environment : Environment World) (instant record : Record World) : Prop where
  progress : record.crew.allEnded = false ->
    exists index next, record.move? environment index = some next
  finite : forall schedule, exists count, record.run? environment (moves schedule count) = none
  starts : forall index worker, record.crew.workers[index]? = some worker ->
    (record.starts index).length <= (instant.starts index).length + 1
  summaries : record.crew.allEnded = true ->
    forall index worker, record.crew.workers[index]? = some worker ->
      (instant.crew.floor.barrier.standing worker.participant).isSome = true ->
      (forall closing, closing ∈ Deed.closings (record.deeds index) -> closing.isCrash = false) ->
      exists summary, worker.verdict? = some (.finished summary) ∧
        record.Evenly instant.crew.floor.barrier.phase index summary
  closed : record.crew.allEnded = true -> instant.crew.floor.barrier.seats ≠ [] ->
    record.crew.floor.barrier.terminated = true ∧
      (record.crew.floor.barrier.phase = instant.crew.floor.barrier.phase + 1 ∨
        record.crew.floor.barrier.phase = instant.crew.floor.barrier.phase + 2)

/-- A crew that gathers first is even-handed from any instant on at which the flag is up. -/
theorem stops_evenly (environment : Environment World) (world : World) (recruits : List Recruit)
    (before : List Act) (hbefore : forall act, act ∈ before -> act.keepsCrew = true)
    (hinstant : (gather world recruits).run? environment before = some instant)
    (hup : instant.crew.floor.stopping = true) (indices : List Nat)
    (hrun : instant.run? environment (indices.map .move) = some record) :
    EvenHanded environment instant record := by
  have hmustered := (fresh_gather world recruits).toMustered.run hbefore hinstant
  have hstart : Shut recruits instant instant :=
    ⟨since_refl hup, hmustered, Nat.le_add_right _ 2⟩
  have hshut := hstart.run hmustered hrun
  refine ⟨hshut.mustered.account.exists_move environment, ?_, ?_, ?_, ?_⟩
  · have hbounded : Bounded record := fun _ _ => Or.inr hshut.stopping
    exact hbounded.exists_stuck environment
  · intro index worker hworker
    exact hshut.length_starts_le hmustered hworker
  · intro hended index worker hworker hsome huncrashed
    exact hshut.exists_summary hmustered hended hworker hsome huncrashed
  · intro hended hseats
    rcases List.exists_mem_of_ne_nil _ hseats with ⟨seat, hseat⟩
    rcases hmustered.account.exists_owner hseat with ⟨index, worker, hworker, _⟩
    have hne : recruits ≠ [] := by
      rw [<- List.length_pos_iff, <- hmustered.length_eq]
      exact List.length_pos_of_mem (List.mem_of_getElem? hworker)
    have hempty := hshut.mustered.account.seats_of_allEnded hended
    have hlower := hshut.phase_lt hempty hseats
    have hupper := hshut.phase_le_add_two
    exact ⟨hshut.mustered.account.terminated_of_allEnded hended
      (hshut.mustered.workers_ne_nil hne), by omega⟩

def unlimited : List Recruit :=
  [rehearsed .consumer none [], rehearsed .metadata none []]

def raising : List Act :=
  List.replicate 6 (.move 0) ++ [.move 1, .stop]

theorem stops_evenly_raising :
    exists instant record,
      (gather emptySite unlimited).run? Simulated.Site.environment raising = some instant ∧
      instant.run? Simulated.Site.environment
        ((List.replicate 5 1 ++ List.replicate 4 0).map .move) = some record ∧
      record.crew.allEnded = true ∧
      EvenHanded Simulated.Site.environment instant record := by
  have hcheck : ((gather emptySite unlimited).run? Simulated.Site.environment raising).any
      (fun instant => instant.crew.floor.stopping &&
        (instant.run? Simulated.Site.environment
          ((List.replicate 5 1 ++ List.replicate 4 0).map .move)).any
          (fun record => record.crew.allEnded)) = true := by decide +kernel
  rcases (Option.any_eq_true _ _).mp hcheck with ⟨instant, hinstant, hfacts⟩
  rcases Bool.and_eq_true_iff.mp hfacts with ⟨hup, hlater⟩
  rcases (Option.any_eq_true _ _).mp hlater with ⟨record, hrun, hended⟩
  have hbefore : forall act, act ∈ raising -> act.keepsCrew = true :=
    List.all_eq_true.mp (by decide)
  exact ⟨instant, record, hinstant, hrun, hended, stops_evenly Simulated.Site.environment
    emptySite unlimited raising hbefore hinstant hup _ hrun⟩

end Record

end BrokerProbe
