import BrokerProbe.Proofs.Metric.Hall
import BrokerProbe.Proofs.Metric.Turnover
import BrokerProbe.Proofs.Round.Survey
import BrokerProbe.Proofs.Round.Sweep
import BrokerProbe.Round.Scene
import BrokerProbe.Simulated.Cluster
/-!
# What a play does

A round that is played in surroundings which keep showing one topology and one
roster sees these.  Whatever a round is answered, it leaves every metric in its
shape, and the instrument of a key changes only with the questions that concern
this key.
-/

namespace BrokerProbe

namespace Round

/-!
# Steady surroundings
-/

/-- Surroundings that show a topology and a roster for as long as they stay in good order. -/
structure Surroundings.Steady {World : Type} (surroundings : Surroundings World)
    (topology : Topology) (roster : Roster) (good : World -> Prop) : Prop where
  fetch : forall world, good world ->
    (surroundings.fetch world).1.value = .ok topology ∧ good (surroundings.fetch world).2
  close : forall world, good world -> good (surroundings.close world)
  peers : forall world, good world ->
    (surroundings.peers world).1 = .ok roster ∧ good (surroundings.peers world).2
  read : forall partition world, good world ->
    (surroundings.read partition world).1 ≠ .crashed ∧ good (surroundings.read partition world).2
  tell : forall event world, good world -> good (surroundings.tell event world)

variable {World : Type} {surroundings : Surroundings World} {scene : Scene World}

theorem Surroundings.Steady.sees {topology : Topology} {roster : Roster} {good : World -> Prop}
    (h : surroundings.Steady topology roster good) {sweep : Sweep} (hworld : good scene.world)
    (hdirectory : sweep.directory = .service ∨ sweep.directory = .fixed roster) :
    forall exchange, exchange ∈ sweep.round.transcript (Scene.reply surroundings) scene ->
      Exchange.Sees topology roster exchange := by
  have hasks : sweep.round.Asks fun question =>
      forall other, question = .peers (.fixed other) -> other = roster := by
    apply Sweep.asks_round (by simp) (by simp) (by simp) (by simp) sweep (by simp)
    rcases hdirectory with hservice | hfixed
    · simp [hservice]
    · simp [hfixed, eq_comm]
  refine (Dialogue.keeps_run (fun scene => good scene.world) ?_ hasks hworld).1
  intro question scene hquestion hgood
  cases question with
  | metric question => exact ⟨trivial, hgood⟩
  | fetch => exact h.fetch scene.world hgood
  | close => exact ⟨trivial, h.close scene.world hgood⟩
  | peers directory =>
      cases directory with
      | service => exact h.peers scene.world hgood
      | fixed other => exact ⟨congrArg Except.ok (hquestion other rfl), hgood⟩
  | read partition => exact h.read partition scene.world hgood
  | tell event => exact ⟨trivial, h.tell event scene.world hgood⟩
  | stopAll => exact ⟨trivial, hgood⟩

theorem steady_cluster (topology : Topology) (roster : Roster) :
    Simulated.Cluster.surroundings.Steady topology roster fun cluster =>
      cluster.topology = topology ∧ cluster.topologyDown = false ∧
        cluster.roster = roster ∧ cluster.directoryDown = false where
  fetch := by
    rintro cluster ⟨rfl, hup, hgood⟩
    simp [Simulated.Cluster.surroundings, Simulated.Cluster.fetch, hup, hgood]
  close := fun _ h => h
  peers := by
    rintro cluster ⟨htopology, hup, rfl, hdirectory⟩
    simp [Simulated.Cluster.surroundings, Simulated.Cluster.peers, htopology, hup, hdirectory]
  read := by
    intro partition cluster hgood
    refine ⟨by simp [Simulated.Cluster.surroundings], ?_⟩
    simp only [Simulated.Cluster.surroundings, Simulated.Cluster.read]
    split
    · exact hgood
    · exact hgood
  tell := fun _ _ h => h

/-!
# The metric space in a play
-/

theorem Setting.givenBy_metric {Place : Type}
    {records : (question : Metric.Question) -> Place -> Metric.Answer question × Place}
    {setting : Setting Place World} {exchanges : List Exchange}
    (h : Dialogue.GivenBy (reply records surroundings) setting exchanges) :
    Dialogue.GivenBy records setting.space (metricExchanges exchanges) ∧
      (Dialogue.stateAfter (reply records surroundings) setting exchanges).space =
        Dialogue.stateAfter records setting.space (metricExchanges exchanges) := by
  induction exchanges generalizing setting with
  | nil => exact ⟨trivial, rfl⟩
  | cons exchange rest ih =>
      rcases exchange with ⟨question, answer⟩
      rcases ih h.2 with ⟨hgiven, hafter⟩
      cases question with
      | metric question => exact ⟨⟨h.1, hgiven⟩, hafter⟩
      | peers directory => cases directory <;> exact ⟨hgiven, hafter⟩
      | _ => exact ⟨hgiven, hafter⟩

theorem Scene.givenBy_metric {exchanges : List Exchange}
    (h : Dialogue.GivenBy (reply surroundings) scene exchanges) :
    Dialogue.GivenBy Metric.Space.reply scene.space (metricExchanges exchanges) ∧
      (Dialogue.stateAfter (reply surroundings) scene exchanges).space =
        Dialogue.stateAfter Metric.Space.reply scene.space (metricExchanges exchanges) :=
  Setting.givenBy_metric h

def Setting.seen (setting : Setting Metric.Hall World) : Scene World :=
  { space := setting.space.space, stopping := setting.stopping, world := setting.world }

/-- Where nothing is shared, a round over the instruments is a play in the scene that shows. -/
theorem Setting.play_seen {Value : Type} (surroundings : Surroundings World)
    (asking : Asking Value) (setting : Setting Metric.Hall World)
    (h : setting.space.commons.Sole) :
    Scene.play surroundings asking setting.seen =
      ((asking.run (reply Metric.Hall.reply surroundings) setting).1,
        (asking.run (reply Metric.Hall.reply surroundings) setting).2.seen) := by
  refine Dialogue.run_of_shows seen (fun setting => setting.space.commons.Sole) ?_ asking h
  intro question setting hsole
  cases question with
  | metric question =>
      refine ⟨?_, hsole.follow question⟩
      have hspace := Metric.Hall.space_reply hsole question
      simp only [Scene.reply, reply, seen, hspace]
      rfl
  | peers directory => cases directory <;> exact ⟨rfl, hsole⟩
  | _ => exact ⟨rfl, hsole⟩

/-!
# The registry after a play
-/

def Question.Fits : Question -> Prop
  | .metric question => question.Fits
  | _ => True

def Exchange.Granted : Exchange -> Prop
  | ⟨.metric question, answer⟩ => Metric.Granted ⟨question, answer⟩
  | _ => True

theorem Sweep.asks_round_fits (sweep : Sweep) : sweep.round.Asks Question.Fits :=
  asks_round (fun _ h => h) trivial (fun _ => trivial) (fun _ => trivial) sweep trivial trivial

theorem Survey.asks_round_fits (survey : Survey) : survey.round.Asks Question.Fits :=
  asks_round (fun _ h => h) trivial trivial (fun _ => trivial) survey

theorem Scene.keeps_kinded {Value : Type} (surroundings : Surroundings World)
    {asking : Asking Value} (hasks : asking.Asks Question.Fits)
    (h : scene.space.registry.Kinded) :
    (forall exchange, exchange ∈ asking.transcript (reply surroundings) scene ->
      Exchange.Granted exchange) ∧
      (play surroundings asking scene).2.space.registry.Kinded := by
  refine Dialogue.keeps_run (fun scene : Scene World => scene.space.registry.Kinded) ?_ hasks h
  intro question scene hfits hkinded
  cases question with
  | metric question => exact ⟨hkinded.granted hfits, hkinded.reply hfits⟩
  | peers directory => cases directory <;> exact ⟨trivial, hkinded⟩
  | _ => exact ⟨trivial, hkinded⟩

def Question.effectAt (key : String) (question : Question)
    (held : Option Metric.Instrument) : Option Metric.Instrument :=
  match question.metric? with
  | some question => question.effectAt key held
  | none => held

theorem Scene.get?_reply (surroundings : Surroundings World) (question : Question)
    (scene : Scene World) (key : String) :
    (reply surroundings question scene).2.space.registry.get? key =
      question.effectAt key (scene.space.registry.get? key) := by
  cases question with
  | metric question => exact scene.space.get?_reply question key
  | peers directory => cases directory <;> rfl
  | _ => rfl

theorem foldl_effectAt (key : Metric.Key) (exchanges : List Exchange)
    (held : Option Metric.Instrument) :
    (exchanges.map Dialogue.Exchange.question).foldl
        (fun held question => question.effectAt key.encode held) held =
      (Metric.Question.concerning key (metricQuestions exchanges)).foldl
        (fun held question => question.effect held) held := by
  rw [Metric.Question.concerning, <- Metric.Question.foldl_effectAt]
  induction exchanges generalizing held with
  | nil => rfl
  | cons exchange rest ih =>
      rw [List.map_cons, List.foldl_cons, ih]
      rcases exchange with ⟨question, answer⟩
      cases question <;> rfl

theorem Scene.get?_play {Value : Type} (surroundings : Surroundings World)
    (asking : Asking Value) (scene : Scene World) (key : Metric.Key) :
    (play surroundings asking scene).2.space.registry.get? key.encode =
      (Metric.Question.concerning key
        (metricQuestions (asking.transcript (reply surroundings) scene))).foldl
          (fun held question => question.effect held)
          (scene.space.registry.get? key.encode) := by
  rw [<- foldl_effectAt, play, <- (Dialogue.givenBy_transcript _ asking scene).2]
  exact Dialogue.view_stateAfter
    (fun scene : Scene World => scene.space.registry.get? key.encode)
    (fun question scene => get?_reply surroundings question scene key.encode) _ scene

end Round

end BrokerProbe
