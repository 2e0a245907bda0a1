import BrokerProbe.Broker.Basic
import BrokerProbe.Proofs.Crew.Reporting
import BrokerProbe.Simulated.Broker
/-!
# Sessions are bracketed

Whatever happens to a crew, what each of its workers has called is whole
sessions, one for each of its rounds, and the beginning of one more if the worker
is in a round.  So a logbook that all workers report to, and that counts the
sessions under way, counts the workers between their start and their stop,
however they take turns.
-/

namespace BrokerProbe

open Worker (Call Closing Deed Session Sessions Tallied)

variable {World : Type} {environment : Environment World}

structure Environment.Logs (environment : Environment World)
    (logbook : World -> Metric.Logbook) : Prop where
  start : forall world, (environment.reporter.start world).1 = .ok () ∧
    logbook (environment.reporter.start world).2 = (logbook world).start
  report : forall registry world,
    logbook (environment.reporter.report registry world).2 = (logbook world).report registry
  stop : forall world, logbook (environment.reporter.stop world) = (logbook world).stop
  fetch : forall world,
    (logbook (environment.surroundings.fetch world).2).active = (logbook world).active
  close : forall world,
    (logbook (environment.surroundings.close world)).active = (logbook world).active
  peers : forall world,
    (logbook (environment.surroundings.peers world).2).active = (logbook world).active
  read : forall partition world,
    (logbook (environment.surroundings.read partition world).2).active = (logbook world).active
  tell : forall event world,
    (logbook (environment.surroundings.tell event world)).active = (logbook world).active

theorem Broker.logs (broker : Broker) (settings : Settings) :
    (broker.environment settings).Logs id :=
  ⟨fun _ => ⟨rfl, rfl⟩, fun _ _ => rfl, fun _ => rfl, fun _ => rfl, fun _ => rfl, fun _ => rfl,
    fun _ _ => rfl, fun _ _ => rfl⟩

theorem Metric.Logbook.active_report (registry : Metric.Registry) (logbook : Metric.Logbook) :
    (logbook.report registry).active = logbook.active := by
  rw [report]
  induction registry.readings generalizing logbook with
  | nil => rfl
  | cons reading rest ih => exact ih _

namespace Worker

variable {worker moved : Worker} {floor next : Floor World} {logbook : World -> Metric.Logbook}

theorem active_reply (h : environment.Logs logbook) (question : Round.Question)
    (scene : Round.Scene World) :
    (logbook (scene.reply environment.surroundings question).2.world).active =
      (logbook scene.world).active := by
  cases question with
  | metric => rfl
  | fetch => exact h.fetch scene.world
  | close => exact h.close scene.world
  | peers directory =>
      cases directory with
      | fixed => rfl
      | service => exact h.peers scene.world
  | read partition => exact h.read partition scene.world
  | tell event => exact h.tell event scene.world
  | stopAll => rfl

theorem active_stepRound (h : environment.Logs logbook) (worker : Worker) (floor : Floor World)
    (rest : Round.Asking Round.Ending) (detached : Array Metric.Window) :
    (logbook (worker.stepRound environment floor rest detached).2.world).active =
      (logbook floor.world).active := by
  cases rest with
  | done => rfl
  | ask question following => exact active_reply h question (floor.scene worker.aside detached)

theorem inSession_stepRound (environment : Environment World) (worker : Worker)
    (floor : Floor World) (rest : Round.Asking Round.Ending) (detached : Array Metric.Window) :
    (worker.stepRound environment floor rest detached).1.inSession = true := by
  cases rest with
  | ask => rfl
  | done ending => cases ending <;> rfl

theorem active_stepClose (h : environment.Logs logbook) (worker : Worker) (floor : Floor World)
    (closing : Closing) :
    (logbook (worker.stepClose environment floor closing).2.world).active =
      (logbook floor.world).active - 1 := by
  have hstop := congrArg Metric.Logbook.active (h.stop floor.world)
  simp only [stepClose]
  split
  · exact (h.tell _ _).trans hstop
  · exact hstop

theorem active_ready (h : environment.Logs logbook) (hstage : worker.stage = .ready)
    (hstep : worker.step? environment floor = some (moved, next)) :
    (logbook next.world).active = (logbook floor.world).active + 1 ∧ moved.inSession = true := by
  rcases h.start floor.world with ⟨hanswer, hlogged⟩
  simp only [step?, hstage, Option.some.injEq, stepReady, hanswer, Prod.mk.injEq] at hstep
  rcases hstep with ⟨rfl, rfl⟩
  exact ⟨congrArg Metric.Logbook.active hlogged, rfl⟩

theorem Passage.world_eq {deed? : Option Deed} (h : Passage worker floor moved next deed?)
    (hbetween : worker.stage.between = true) (hready : worker.stage ≠ .ready) :
    next.world = floor.world := by
  cases h with
  | unstarted hstage => exact absurd hstage hready
  | started hstage => exact absurd hstage hready
  | asked _ hstage => simp [hstage, Stage.between] at hbetween
  | reported hstage => simp [hstage, Stage.between] at hbetween
  | panicked hstage => simp [hstage, Stage.between] at hbetween
  | counted hstage => simp [hstage, Stage.between] at hbetween
  | _ => rfl

theorem inSession_eq_false (hbetween : worker.stage.between = true) :
    worker.inSession = false := by
  rw [inSession, hbetween]
  rfl

theorem active_step (h : environment.Logs logbook)
    (hcounted : worker.inSession.toNat <= (logbook floor.world).active)
    (hstep : worker.step? environment floor = some (moved, next)) :
    (logbook next.world).active + worker.inSession.toNat =
      (logbook floor.world).active + moved.inSession.toNat := by
  by_cases hbetween : worker.stage.between = true
  · rw [inSession_eq_false hbetween]
    by_cases hready : worker.stage = .ready
    · rcases active_ready h hready hstep with ⟨hactive, hmoved⟩
      rw [hactive, hmoved]
      rfl
    · have hpassage := passage_of_step hstep
      rw [hpassage.world_eq hbetween hready,
        inSession_eq_false (hpassage.between hbetween hready).1]
  · cases hstage : worker.stage with
    | rounding rest detached =>
        have hactive := active_stepRound h worker floor rest detached
        simp only [step?, hstage, Option.some.injEq] at hstep
        have hmoved := inSession_stepRound environment worker floor rest detached
        rw [hstep] at hactive hmoved
        rw [hactive, hmoved, inSession, hstage]
        rfl
    | reporting ending =>
        simp only [step?, hstage, Option.some.injEq, stepReport, Prod.mk.injEq] at hstep
        rcases hstep with ⟨rfl, rfl⟩
        have hreport := congrArg Metric.Logbook.active (h.report floor.registry floor.world)
        rw [Metric.Logbook.active_report] at hreport
        rw [inSession, hstage]
        exact congrArg (· + 1) hreport
    | closing closing =>
        have hactive := active_stepClose h worker floor closing
        have hmoved := stepClose_fst environment worker floor closing
        simp only [step?, hstage, Option.some.injEq] at hstep
        rw [hstep] at hactive hmoved
        simp only at hactive hmoved
        have hsession : worker.inSession = true := by
          rw [inSession, hstage]
          rfl
        rw [hsession] at hcounted
        rw [hactive, hmoved, hsession, inSession_eq_false (between_afterSession worker closing)]
        exact Nat.sub_add_cancel hcounted
    | _ => simp [hstage, Stage.between] at hbetween

end Worker

namespace Record

variable {record next : Record World} {calls : List (Nat × Call)}
variable {logbook : World -> Metric.Logbook}

/-!
# The logbook
-/

def sessions (record : Record World) : Nat :=
  record.crew.workers.countP Worker.inSession

theorem countP_set (workers : List Worker) {index : Nat} {worker : Worker} (moved : Worker)
    (hworker : workers[index]? = some worker) :
    (workers.set index moved).countP Worker.inSession + worker.inSession.toNat =
      workers.countP Worker.inSession + moved.inSession.toNat := by
  induction workers generalizing index with
  | nil => cases hworker
  | cons first rest ih =>
      cases index with
      | zero =>
          cases hworker
          rw [List.set_cons_zero, List.countP_cons, List.countP_cons]
          cases worker.inSession <;> cases moved.inSession <;> rfl
      | succ index =>
          have hrest := ih hworker
          rw [List.set_cons_succ, List.countP_cons, List.countP_cons]
          omega

/-- Whether a logbook counts the workers in a session, on top of what it counted before. -/
def CountedBy (logbook : World -> Metric.Logbook) (before : Nat) (record : Record World) : Prop :=
  (logbook record.crew.floor.world).active = before + record.sessions

theorem countedBy_ofWorld (logbook : World -> Metric.Logbook) (world : World) :
    CountedBy logbook (logbook world).active (ofWorld world) :=
  rfl

theorem CountedBy.move {before index : Nat} (h : CountedBy logbook before record)
    (hlogs : environment.Logs logbook) (hmove : record.move? environment index = some next) :
    CountedBy logbook before next := by
  rcases move?_eq_some hmove with ⟨worker, moved, floor, hworker, hstep, rfl⟩
  unfold CountedBy sessions at h ⊢
  have hcounted : worker.inSession.toNat <= record.crew.workers.countP Worker.inSession := by
    cases hsession : worker.inSession with
    | false => exact Nat.zero_le _
    | true => exact List.countP_pos_iff.mpr ⟨worker, List.mem_of_getElem? hworker, hsession⟩
  have hactive := Worker.active_step hlogs (by omega) hstep
  have hsessions := countP_set record.crew.workers moved hworker
  show (logbook floor.world).active =
    before + (record.crew.workers.set index moved).countP Worker.inSession
  omega

theorem CountedBy.act {before : Nat} {act : Act} (h : CountedBy logbook before record)
    (hlogs : environment.Logs logbook) (hact : record.act? environment act = some next) :
    CountedBy logbook before next := by
  cases act with
  | join recruit =>
      cases hact
      rw [join_eq]
      split
      · exact h
      · unfold CountedBy sessions at h ⊢
        simpa [Worker.inSession, Worker.seated, Worker.Stage.between] using h
  | abandon index =>
      rcases abandon?_eq_some hact with ⟨worker, hworker, hstage, _, rfl⟩
      have hsessions := countP_set record.crew.workers worker.abandon hworker
      rw [Worker.inSession, hstage] at hsessions
      exact h.trans (congrArg (before + ·) hsessions.symm)
  | stop =>
      cases hact
      exact h
  | move index => exact h.move hlogs hact

theorem CountedBy.run {before : Nat} {acts : List Act} (h : CountedBy logbook before record)
    (hlogs : environment.Logs logbook) (hrun : record.run? environment acts = some next) :
    CountedBy logbook before next :=
  run?_keeps (fun _ _ _ _ hcounted hact => hcounted.act hlogs hact) h hrun

structure Logged (logbook : World -> Metric.Logbook) (world : World) (record : Record World) :
    Prop where
  active_eq : (logbook record.crew.floor.world).active = (logbook world).active + record.sessions
  active_pos : forall worker, worker ∈ record.crew.workers -> worker.inSession = true ->
    0 < (logbook record.crew.floor.world).active
  emptied : record.crew.allEnded = true ->
    (logbook record.crew.floor.world).active = (logbook world).active

theorem sessions_of_allEnded (hended : record.crew.allEnded = true) : record.sessions = 0 := by
  rw [sessions, List.countP_eq_zero]
  intro worker hworker
  simp [Worker.inSession_of_hasEnded (List.all_eq_true.mp hended worker hworker)]

theorem CountedBy.logged {world : World} (h : CountedBy logbook (logbook world).active record) :
    Logged logbook world record := by
  refine ⟨h, ?_, ?_⟩
  · intro worker hworker hsession
    rw [h]
    exact Nat.lt_add_left _ (List.countP_pos_iff.mpr ⟨worker, hworker, hsession⟩)
  · intro hended
    rw [h, sessions_of_allEnded hended, Nat.add_zero]

/-!
# The calls of all workers
-/

structure Calling (record : Record World) (calls : List (Nat × Call)) : Prop where
  called : forall (index : Nat) (worker : Worker), record.crew.workers[index]? = some worker ->
    worker.Called (entriesOf calls index) (Deed.closings (record.deeds index))
  index_lt : forall entry, entry ∈ calls -> entry.1 < record.crew.workers.length

theorem calling_ofWorld (world : World) : Calling (ofWorld world) [] := by
  refine ⟨?_, by simp⟩
  intro index worker hworker
  cases hworker

theorem Calling.calls_length (h : Calling record calls) :
    entriesOf calls record.crew.workers.length = [] := by
  simp only [entriesOf, List.map_eq_nil_iff, List.filter_eq_nil_iff]
  intro entry hentry
  simpa using Nat.ne_of_lt (h.index_lt entry hentry)

theorem closings_joined (log : List (Nat × Deed)) (place phase index : Nat) :
    Deed.closings (entriesOf (log ++ [(place, .joined phase)]) index) =
      Deed.closings (entriesOf log index) := by
  rw [entriesOf_append, Deed.closings, List.filterMap_append]
  by_cases heq : index = place
  · have hself := entriesOf_map_self place [Deed.joined phase]
    rw [List.map_singleton] at hself
    rw [heq, hself]
    exact List.append_nil _
  · have hnone := entriesOf_map_of_ne heq [Deed.joined phase]
    rw [List.map_singleton] at hnone
    rw [hnone]
    exact List.append_nil _

theorem Calling.join (h : Calling record calls) (haccount : Account record)
    (recruit : Recruit) : Calling (record.join recruit) calls := by
  rw [join_eq]
  split
  · exact h
  · refine ⟨?_, ?_⟩
    · intro index worker hworker
      rw [deeds, closings_joined]
      rcases getElem?_append_singleton hworker with hold | ⟨rfl, rfl⟩
      · exact h.called index worker hold
      · have hdeeds := haccount.deeds_length
        rw [deeds] at hdeeds
        rw [h.calls_length, hdeeds]
        exact Worker.called_seated _ _ _ _ _
    · intro entry hentry
      rw [List.length_append]
      exact Nat.lt_add_right _ (h.index_lt entry hentry)

theorem Calling.abandon {index : Nat} (h : Calling record calls)
    (habandon : record.abandon? index = some next) : Calling next calls := by
  rcases abandon?_eq_some habandon with ⟨worker, hworker, hstage, _, rfl⟩
  refine ⟨?_, by simpa using h.index_lt⟩
  intro other another hanother
  have hold := h.called other
  rw [List.getElem?_set] at hanother
  by_cases heq : index = other
  · subst heq
    rw [if_pos rfl, if_pos (List.getElem?_eq_some_iff.mp hworker).1] at hanother
    cases hanother
    exact (hold worker hworker).abandon hstage
  · rw [if_neg heq] at hanother
    exact hold another hanother

theorem Calling.move {index : Nat} (h : Calling record calls)
    (hmove : record.move? environment index = some next) :
    Calling next (calls ++ record.callsBy environment (.move index)) := by
  rcases move?_eq_some hmove with ⟨worker, moved, floor, hworker, hstep, rfl⟩
  have hlt := (List.getElem?_eq_some_iff.mp hworker).1
  simp only [callsBy, hworker]
  refine ⟨?_, ?_⟩
  · intro other another hanother
    simp only [deeds, entriesOf_append, Deed.closings, List.filterMap_append]
    rw [List.getElem?_set] at hanother
    by_cases heq : index = other
    · subst heq
      rw [if_pos rfl, if_pos hlt] at hanother
      cases hanother
      rw [entriesOf_map_self, entriesOf_map_self]
      exact (h.called index worker hworker).step hstep
    · rw [if_neg heq] at hanother
      rw [entriesOf_map_of_ne (Ne.symm heq), entriesOf_map_of_ne (Ne.symm heq)]
      simpa [deeds, Deed.closings] using h.called other another hanother
  · intro entry hentry
    rw [List.length_set]
    rcases List.mem_append.mp hentry with hold | hnew
    · exact h.index_lt entry hold
    · rcases List.mem_map.mp hnew with ⟨call, _, rfl⟩
      exact hlt

theorem Calling.act {act : Act} (h : Calling record calls) (haccount : Account record)
    (hact : record.act? environment act = some next) :
    Calling next (calls ++ record.callsBy environment act) := by
  cases act with
  | join recruit =>
      cases hact
      show Calling (record.join recruit) (calls ++ [])
      rw [List.append_nil]
      exact h.join haccount recruit
  | abandon index =>
      show Calling next (calls ++ [])
      rw [List.append_nil]
      exact h.abandon hact
  | stop =>
      cases hact
      show Calling _ (calls ++ [])
      rw [List.append_nil]
      exact ⟨h.called, h.index_lt⟩
  | move index => exact h.move hact

theorem Calling.run {acts : List Act} (h : Calling record calls) (haccount : Account record)
    (hrun : record.run? environment acts = some next) :
    Calling next (calls ++ record.calls environment acts) := by
  induction acts generalizing record calls with
  | nil =>
      cases hrun
      rw [Record.calls, List.append_nil]
      exact h
  | cons act rest ih =>
      rcases run?_cons_eq_some hrun with ⟨middle, hact, hrest⟩
      have hcalling := ih (h.act haccount hact) (haccount.act hact) hrest
      rwa [Record.calls, hact, <- List.append_assoc]

/-- What holds of the sessions of a crew after anything that can happen. -/
structure Bracketed (environment : Environment World) (world : World) (acts : List Act)
    (record : Record World) : Prop where
  /-- A worker calls whole sessions, one for each of its rounds, and begins the one it is in. -/
  called : forall (index : Nat) (worker : Worker), record.crew.workers[index]? = some worker ->
    worker.Called (entriesOf ((ofWorld world).calls environment acts) index)
      (Deed.closings (record.deeds index))
  uncrashed : forall (index : Nat) (worker : Worker) (front : List Closing) (closing : Closing),
    record.crew.workers[index]? = some worker ->
    Deed.closings (record.deeds index) = front ++ [closing] ->
    forall other, other ∈ front -> other.isCrash = false
  tallied : forall (index : Nat) (worker : Worker), record.crew.workers[index]? = some worker ->
    Tallied worker (entriesOf ((ofWorld world).calls environment acts) index)
  /-- The reporter hears the calls of all workers, in the order of the run. -/
  heard : ((ofWorld world).noted []).run? environment.noting acts =
    some (record.noted (heard ((ofWorld world).calls environment acts)))
  answered : forall answer, (ofWorld world).run? (environment.answering answer) acts = some record
  logged : forall logbook, environment.Logs logbook -> Logged logbook world record

theorem bracketed {world : World} {acts : List Act}
    (hrun : (ofWorld world).run? environment acts = some record) :
    Bracketed environment world acts record := by
  have hstart := account_ofWorld world
  have haccount := hstart.run hrun
  have hcalling := (calling_ofWorld world).run hstart hrun
  refine ⟨hcalling.called, ?_, ?_, run?_noted hrun [], ?_, ?_⟩
  · intro index worker front closing hworker hclosings other hother
    rcases haccount.course index worker hworker with ⟨entry, hcourse⟩
    exact hcourse.uncrashed hclosings hother
  · intro index worker hworker
    rcases haccount.course index worker hworker with ⟨entry, hcourse⟩
    exact hcourse.tallied (hcalling.called index worker hworker)
  · intro answer
    rw [run?_answering, hrun]
  · intro logbook hlogs
    exact ((countedBy_ofWorld logbook world).run hlogs hrun).logged

def loggedBroker : Environment Metric.Logbook :=
  (Simulated.broker [] fun _ => 0).environment (.ofNames "main" "broker:9092" "probe-0:80")

def refusedAndPanicking : List Act :=
  [.join (rehearsed .consumer (some 1) [.refuseTopology]),
    .join (rehearsed .metadata (some 1) [.crash]),
    .move 0, .move 1, .move 0, .move 1, .move 1, .move 0, .move 1, .move 0, .move 0, .move 0]

theorem bracketed_refusedAndPanicking :
    exists record,
      (ofWorld (.ofCluster "main")).run? loggedBroker refusedAndPanicking = some record ∧
      record.crew.workers.map (fun worker => (worker.rounds, worker.failedRounds)) =
        [(1, 1), (0, 0)] ∧
      Bracketed loggedBroker (.ofCluster "main") refusedAndPanicking record ∧
      record.crew.floor.world.active = 0 := by
  have hcheck : ((ofWorld (.ofCluster "main")).run? loggedBroker refusedAndPanicking).any
      (fun record => record.crew.allEnded &&
        decide (record.crew.workers.map (fun worker => (worker.rounds, worker.failedRounds)) =
          [(1, 1), (0, 0)])) = true := by decide +kernel
  rcases (Option.any_eq_true _ _).mp hcheck with ⟨record, hrun, hfacts⟩
  simp only [Bool.and_eq_true, decide_eq_true_eq] at hfacts
  have hbracketed := bracketed hrun
  exact ⟨record, hrun, hfacts.2, hbracketed,
    (hbracketed.logged id (Broker.logs _ _)).emptied hfacts.1⟩

end Record

end BrokerProbe
