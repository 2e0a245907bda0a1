import BrokerProbe.Proofs.Crew.Session
/-!
# What a reporter hears

The calls of all workers in the order of a run are what their reporter gets to
hear: a reporter that also notes its calls notes just these.  And nobody listens
to what the reporter answers to a report.
-/

namespace BrokerProbe

open Worker (Call)

variable {World : Type}

def Environment.answering (environment : Environment World)
    (answer : Metric.Registry -> World -> Except Metric.ReporterError Unit) : Environment World :=
  { environment with
    reporter := { environment.reporter with
      report := fun registry world =>
        (answer registry world, (environment.reporter.report registry world).2) } }

/-!
# Notes
-/

/-- The same environment, with a note of every call on the reporter. -/
def Environment.noting (environment : Environment World) : Environment (World × List Call) where
  surroundings := environment.surroundings.ofPart Prod.fst fun noted world => (world, noted.2)
  reporter := {
    start := fun noted =>
      let given := environment.reporter.start noted.1
      (given.1, given.2, noted.2 ++ [.started given.1])
    report := fun registry noted =>
      let given := environment.reporter.report registry noted.1
      (given.1, given.2, noted.2 ++ [.reported given.1])
    stop := fun noted => (environment.reporter.stop noted.1, noted.2 ++ [.stopped]) }

def Round.Scene.noted (scene : Round.Scene World) (notes : List Worker.Call) :
    Round.Scene (World × List Worker.Call) :=
  { space := scene.space, stopping := scene.stopping, world := (scene.world, notes) }

def Floor.noted (floor : Floor World) (notes : List Call) : Floor (World × List Call) :=
  { barrier := floor.barrier
    registry := floor.registry
    shelf := floor.shelf
    stopping := floor.stopping
    world := (floor.world, notes) }

variable {environment : Environment World}

theorem Round.Scene.reply_noted (surroundings : Round.Surroundings World)
    (question : Round.Question) (scene : Round.Scene World) (notes : List Worker.Call) :
    (scene.noted notes).reply
        (surroundings.ofPart Prod.fst fun noted world => (world, noted.2)) question =
      ((scene.reply surroundings question).1,
        (scene.reply surroundings question).2.noted notes) := by
  cases question with
  | peers directory => cases directory <;> rfl
  | _ => rfl

theorem Floor.after_noted (floor : Floor World) (aside : Option String)
    (scene : Round.Scene World) (notes : List Call) :
    (floor.noted notes).after aside (scene.noted notes) =
      (floor.after aside scene).noted notes := by
  cases aside <;> rfl

theorem Floor.scene_noted (floor : Floor World) (aside : Option String)
    (detached : Array Metric.Window) (notes : List Call) :
    (floor.noted notes).scene aside detached = (floor.scene aside detached).noted notes := by
  cases aside <;> rfl

namespace Worker

variable {worker moved : Worker} {floor next : Floor World}

theorem deed?_noted (worker : Worker) (floor : Floor World) (notes : List Call) :
    worker.deed? (floor.noted notes) = worker.deed? floor := by
  cases hstage : worker.stage <;> simp [deed?, hstage, Floor.noted]

theorem stepRound_noted (environment : Environment World) (worker : Worker) (floor : Floor World)
    (rest : Round.Asking Round.Ending) (detached : Array Metric.Window) (notes : List Call) :
    worker.stepRound environment.noting (floor.noted notes) rest detached =
      ((worker.stepRound environment floor rest detached).1,
        (worker.stepRound environment floor rest detached).2.noted notes) := by
  cases rest with
  | done ending => rfl
  | ask question following =>
      simp only [stepRound, Environment.noting, Floor.scene_noted, Round.Scene.reply_noted,
        Floor.after_noted]
      rfl

theorem step?_noted (environment : Environment World) (worker : Worker) (floor : Floor World)
    (notes : List Call) :
    worker.step? environment.noting (floor.noted notes) =
      (worker.step? environment floor).map fun result =>
        (result.1, result.2.noted
          (notes ++ (worker.calls environment floor).filter Call.isReporters)) := by
  cases hstage : worker.stage with
  | ready =>
      simp only [step?, stepReady, calls, hstage, Option.map_some]
      have hanswer : (environment.noting.reporter.start (floor.noted notes).world).1 =
        (environment.reporter.start floor.world).1 := rfl
      rw [hanswer]
      cases hstarted : (environment.reporter.start floor.world).1 with
      | error error =>
          simp only [Environment.noting, Floor.noted, hstarted]
          rfl
      | ok =>
          simp only [Environment.noting, Floor.noted, hstarted]
          rfl
  | rounding rest detached =>
      simp only [step?, hstage, Option.map_some, stepRound_noted]
      cases rest with
      | ask => simp [calls, hstage]
      | done => simp [calls, hstage, Call.isReporters]
  | reporting ending =>
      simp only [step?, hstage, Option.map_some, calls]
      rfl
  | closing closing =>
      simp only [step?, hstage, Option.map_some, calls, stepClose]
      cases worker.sessionEvent? closing <;> rfl
  | judging => simp [step?, hstage, calls, Floor.noted]
  | leaving =>
      simp only [step?, hstage, Option.map_some, calls, stepLeave, List.filter_nil,
        List.append_nil, Floor.noted]
      split <;> rfl
  | arriving =>
      simp only [step?, hstage, Option.map_some, calls, stepArrive, List.filter_nil,
        List.append_nil, Floor.noted]
      split <;> rfl
  | asleep phase =>
      simp only [step?, hstage, calls, List.filter_nil, List.append_nil, Floor.noted]
      split <;> rfl
  | pausing => simp [step?, hstage, calls]
  | checking =>
      simp only [step?, hstage, Option.map_some, calls, List.filter_nil, List.append_nil]
      rfl
  | resigning => simp [step?, hstage, calls, Floor.noted]
  | ended => simp [step?, hstage]

end Worker

namespace Record

variable {record next : Record World}

def callsBy (environment : Environment World) (record : Record World) : Act -> List (Nat × Call)
  | .move index =>
      match record.crew.workers[index]? with
      | some worker => (worker.calls environment record.crew.floor).map (index, ·)
      | none => []
  | _ => []

def calls (environment : Environment World) (record : Record World) :
    List Act -> List (Nat × Call)
  | [] => []
  | act :: rest =>
      record.callsBy environment act ++
        match record.act? environment act with
        | some next => next.calls environment rest
        | none => []

def heard (calls : List (Nat × Call)) : List Call :=
  (calls.map Prod.snd).filter Call.isReporters

def noted (record : Record World) (notes : List Call) : Record (World × List Call) :=
  { crew := { floor := record.crew.floor.noted notes, workers := record.crew.workers }
    log := record.log }

theorem heard_append (calls more : List (Nat × Call)) :
    heard (calls ++ more) = heard calls ++ heard more := by
  rw [heard, List.map_append, List.filter_append]
  rfl

theorem heard_map (index : Nat) (calls : List Call) :
    heard (calls.map (index, ·)) = calls.filter Call.isReporters := by
  simp [heard, Function.comp_def]

theorem join_noted (record : Record World) (recruit : Recruit) (notes : List Call) :
    (record.noted notes).join recruit = (record.join recruit).noted notes := by
  rw [join_eq, join_eq]
  show (if record.crew.floor.barrier.terminated = true then _ else _) = _
  split <;> rfl

theorem abandon?_noted (record : Record World) (index : Nat) (notes : List Call) :
    (record.noted notes).abandon? index = (record.abandon? index).map (noted · notes) := by
  simp only [abandon?, noted]
  cases record.crew.workers[index]? with
  | none => rfl
  | some worker =>
      simp only [Option.bind_eq_bind, Option.bind_some]
      split
      · split <;> rfl
      · rfl

theorem move?_noted (environment : Environment World) (record : Record World) (index : Nat)
    (notes : List Call) :
    (record.noted notes).move? environment.noting index =
      (record.move? environment index).map
        (noted · (notes ++ heard (record.callsBy environment (.move index)))) := by
  cases hworker : record.crew.workers[index]? with
  | none => simp [move?, noted, hworker]
  | some worker =>
      simp only [move?, Crew.step?, noted, callsBy, hworker, Option.bind_eq_bind,
        Option.bind_some, heard_map, Worker.step?_noted, Worker.deed?_noted]
      cases worker.step? environment record.crew.floor <;> rfl

theorem act?_noted (environment : Environment World) (record : Record World) (act : Act)
    (notes : List Call) :
    (record.noted notes).act? environment.noting act =
      (record.act? environment act).map
        (noted · (notes ++ heard (record.callsBy environment act))) := by
  cases act with
  | join recruit =>
      simp only [act?, join_noted, callsBy, Option.map_some]
      rw [heard, List.map_nil, List.filter_nil, List.append_nil]
  | abandon index =>
      simp only [act?, abandon?_noted, callsBy]
      rw [heard, List.map_nil, List.filter_nil, List.append_nil]
  | stop =>
      simp only [act?, callsBy, Option.map_some]
      rw [heard, List.map_nil, List.filter_nil, List.append_nil]
      rfl
  | move index => exact move?_noted environment record index notes

/-- A reporter that notes its calls notes what the workers call, in the order of the run. -/
theorem run?_noted {acts : List Act} (hrun : record.run? environment acts = some next)
    (notes : List Call) :
    (record.noted notes).run? environment.noting acts =
      some (next.noted (notes ++ heard (record.calls environment acts))) := by
  induction acts generalizing record notes with
  | nil =>
      cases hrun
      simp [run?, calls, heard]
  | cons act rest ih =>
      rcases run?_cons_eq_some hrun with ⟨middle, hact, hrest⟩
      rw [run?, List.foldlM_cons, act?_noted, hact]
      refine (ih hrest _).trans ?_
      simp only [calls, hact, heard_append, List.append_assoc]

/-!
# Answers to reports
-/

theorem step?_answering (environment : Environment World)
    (answer : Metric.Registry -> World -> Except Metric.ReporterError Unit) (worker : Worker)
    (floor : Floor World) :
    worker.step? (environment.answering answer) floor = worker.step? environment floor := by
  cases hstage : worker.stage with
  | rounding rest detached =>
      cases rest <;> simp [Worker.step?, hstage, Worker.stepRound, Environment.answering]
  | _ => simp [Worker.step?, hstage, Worker.stepReady, Worker.stepReport, Worker.stepClose,
      Floor.tell, Environment.answering]

theorem run?_answering (environment : Environment World)
    (answer : Metric.Registry -> World -> Except Metric.ReporterError Unit)
    (record : Record World) (acts : List Act) :
    record.run? (environment.answering answer) acts = record.run? environment acts := by
  have hact : act? (environment.answering answer) = act? environment := by
    funext record act
    cases act with
    | move index => simp only [act?, move?, Crew.step?, step?_answering]
    | _ => rfl
  rw [run?, run?, hact]

end Record

end BrokerProbe
