import BrokerProbe.Proofs.Round.Locality
import BrokerProbe.Simulated.Cluster
/-!
# Two roles at once

Two clients run their rounds over the same instruments, each asking one question at
a time, in any order of their turns.  If their roles differ, and no instrument is
under a key of each, an order makes no difference: what each of them finds, and
what both leave under the keys, is what comes of running first the one and then
the other.
-/

namespace BrokerProbe

namespace Round

open BrokerProbe.Metric (Commons Local Publisher)

variable {World First Second : Type} {publisher other : Publisher}

/-- A client of a registry in the middle of its rounds, and what answers it apart from that. -/
structure Client (World : Type) where
  surroundings : Surroundings World
  rest : Asking (List Ending)
  backdrop : Backdrop World

namespace Client

def start (publisher : Publisher) (tasks : List Task) (surroundings : Surroundings World)
    (world : World) : Client World :=
  { surroundings
    rest := Task.rounds publisher tasks
    backdrop := { detached := #[], stopping := false, world } }

def step (client : Client World) (commons : Commons) : Client World × Commons :=
  match client.rest with
  | .done _ => (client, commons)
  | .ask question next =>
      let given := client.backdrop.act client.surroundings question commons
      ({ client with rest := next given.1.1, backdrop := given.1.2 }, given.2)

def finish (client : Client World) (commons : Commons) : Client World × Commons :=
  let played := client.backdrop.play client.surroundings client.rest commons
  ({ client with rest := .done played.1.1, backdrop := played.1.2 }, played.2)

def endings? (client : Client World) : Option (List Ending) :=
  match client.rest with
  | .done endings => some endings
  | .ask _ _ => none

def KeepsTo (publisher : Publisher) (client : Client World) : Prop :=
  client.rest.KeepsTo publisher fun _ => True

theorem finish_step (client : Client World) (commons : Commons) :
    (client.step commons).1.finish (client.step commons).2 = client.finish commons := by
  rcases client with ⟨surroundings, _ | _, backdrop⟩ <;> rfl

theorem finish_of_endings? {client : Client World} (h : client.endings? ≠ none)
    (commons : Commons) : client.finish commons = (client, commons) := by
  rcases client with ⟨surroundings, endings | _, backdrop⟩
  · rfl
  · exact absurd rfl h

theorem KeepsTo.local_step {client : Client World} (h : client.KeepsTo publisher) :
    Local publisher.Owns client.step := by
  rcases client with ⟨surroundings, endings | ⟨question, next⟩, backdrop⟩
  · exact Local.aside (fun _ => rfl) fun _ _ => rfl
  · exact (backdrop.local_act h.1).map fun given =>
      ({ surroundings, rest := next given.1, backdrop := given.2 } : Client World)

theorem KeepsTo.local_finish {client : Client World} (h : client.KeepsTo publisher) :
    Local publisher.Owns client.finish :=
  (client.backdrop.local_play h).map fun played =>
    { client with rest := .done played.1, backdrop := played.2 }

theorem finish_view {commons : Commons} (h : commons.Sole) (client : Client World) :
    let played := Scene.play client.surroundings client.rest (client.backdrop.scene commons.view)
    (client.finish commons).1.endings? = some played.1 ∧
      (client.finish commons).2.view = played.2.space.registry := by
  rcases client.backdrop.play_view h client.rest with ⟨hendings, hview⟩
  exact ⟨congrArg some hendings, hview⟩

theorem KeepsTo.step {client : Client World} (h : client.KeepsTo publisher)
    (commons : Commons) : (client.step commons).1.KeepsTo publisher := by
  rcases client with ⟨surroundings, endings | ⟨question, next⟩, backdrop⟩
  · exact h
  · exact h.2 _ (backdrop.hands_act h.1 commons)

end Client

structure Duo (First Second : Type) where
  commons : Commons
  first : Client First
  second : Client Second

inductive Side where
  | first
  | second

namespace Duo

def step (duo : Duo First Second) : Side -> Duo First Second
  | .first =>
      let moved := duo.first.step duo.commons
      { duo with first := moved.1, commons := moved.2 }
  | .second =>
      let moved := duo.second.step duo.commons
      { duo with second := moved.1, commons := moved.2 }

def run (duo : Duo First Second) (turns : List Side) : Duo First Second :=
  turns.foldl step duo

def finish (duo : Duo First Second) : Side -> Duo First Second
  | .first =>
      let finished := duo.first.finish duo.commons
      { duo with first := finished.1, commons := finished.2 }
  | .second =>
      let finished := duo.second.finish duo.commons
      { duo with second := finished.1, commons := finished.2 }

def Done (duo : Duo First Second) : Prop :=
  duo.first.endings? ≠ none ∧ duo.second.endings? ≠ none

/-- Whether the clients are the same, and the same is to be found under the keys. -/
structure Alike (duo after : Duo First Second) : Prop where
  first : duo.first = after.first
  second : duo.second = after.second
  commons : duo.commons.Alike after.commons

variable {duo after last : Duo First Second}

theorem alike_refl (duo : Duo First Second) : duo.Alike duo :=
  ⟨rfl, rfl, duo.commons.alike_refl⟩

theorem Alike.trans (h : duo.Alike after) (hlast : after.Alike last) : duo.Alike last :=
  ⟨h.first.trans hlast.first, h.second.trans hlast.second, h.commons.trans hlast.commons⟩

/-- Whether the clients keep to the keys of two publishers, and these reach nothing in common. -/
structure Apart (publisher other : Publisher) (duo : Duo First Second) : Prop where
  separates : duo.commons.Separates publisher.Owns other.Owns
  first : duo.first.KeepsTo publisher
  second : duo.second.KeepsTo other

theorem Apart.step (h : duo.Apart publisher other) (side : Side) :
    (duo.step side).Apart publisher other := by
  cases side with
  | first =>
      exact ⟨h.separates.of_joint_eq (h.first.local_step.joint _), h.first.step _, h.second⟩
  | second =>
      exact ⟨h.separates.of_joint_eq (h.second.local_step.joint _), h.first, h.second.step _⟩

theorem Apart.finish_comm (h : duo.Apart publisher other) :
    ((duo.finish .first).finish .second).Alike ((duo.finish .second).finish .first) := by
  rcases h.first.local_finish.comm h.second.local_finish duo.commons h.separates with
    ⟨hfirst, hsecond, hcommons⟩
  exact ⟨hfirst.symm, hsecond, hcommons.symm⟩

/-- A question that is asked before is a question that is asked after. -/
theorem Apart.finish_step (h : duo.Apart publisher other) (side : Side) :
    (((duo.step side).finish .first).finish .second).Alike
      ((duo.finish .first).finish .second) := by
  cases side with
  | first =>
      simp only [Duo.finish, Duo.step, Client.finish_step]
      exact alike_refl _
  | second =>
      rcases h.first.local_finish.comm h.second.local_step duo.commons h.separates with
        ⟨hfirst, hsecond, hcommons⟩
      -- The question left the same to be found, so the rest of these rounds comes to the same.
      have hrest := (h.second.step duo.commons).local_finish.alike hcommons
      rw [<- hsecond, Client.finish_step, hsecond] at hrest
      exact ⟨hfirst, hrest.1, hrest.2⟩

theorem Apart.finish_run (h : duo.Apart publisher other) (turns : List Side) :
    (((duo.run turns).finish .first).finish .second).Alike
      ((duo.finish .first).finish .second) := by
  induction turns generalizing duo with
  | nil => exact alike_refl _
  | cons side rest ih => exact (ih (h.step side)).trans (h.finish_step side)

theorem Done.finish (h : duo.Done) : (duo.finish .first).finish .second = duo := by
  simp only [Duo.finish, Client.finish_of_endings? h.1, Client.finish_of_endings? h.2]

theorem exists_run_eq_finish (duo : Duo First Second) (side : Side) :
    exists turns, duo.run turns = duo.finish side := by
  rcases duo with ⟨commons, ⟨firstly, rest, backdrop⟩, ⟨secondly, rest', backdrop'⟩⟩
  cases side with
  | first =>
      induction rest generalizing commons backdrop with
      | done endings => exact ⟨[], rfl⟩
      | ask question next ih =>
          let given := backdrop.act firstly question commons
          rcases ih given.1.1 given.2 given.1.2 with ⟨turns, hturns⟩
          exact ⟨.first :: turns, hturns⟩
  | second =>
      induction rest' generalizing commons backdrop' with
      | done endings => exact ⟨[], rfl⟩
      | ask question next ih =>
          let given := backdrop'.act secondly question commons
          rcases ih given.1.1 given.2 given.1.2 with ⟨turns, hturns⟩
          exact ⟨.second :: turns, hturns⟩

theorem exists_run_done (duo : Duo First Second) (turns : List Side) :
    exists more, (duo.run (turns ++ more)).Done := by
  rcases exists_run_eq_finish (duo.run turns) .first with ⟨firstly, hfirst⟩
  rcases exists_run_eq_finish ((duo.run turns).finish .first) .second with ⟨secondly, hsecond⟩
  refine ⟨firstly ++ secondly, ?_⟩
  have hrun : duo.run (turns ++ (firstly ++ secondly)) =
      ((duo.run turns).finish .first).finish .second := by
    rw [<- hsecond, <- hfirst]
    simp only [run, List.foldl_append]
  rw [hrun]
  exact ⟨Option.some_ne_none _, Option.some_ne_none _⟩

theorem Apart.run_alike (h : duo.Apart publisher other) {turns : List Side}
    (hdone : (duo.run turns).Done) :
    (duo.run turns).Alike ((duo.finish .first).finish .second) := by
  have hrun := h.finish_run turns
  rwa [hdone.finish] at hrun

theorem Apart.finish_view (h : duo.Apart publisher other) (hsole : duo.commons.Sole) :
    let before := Scene.play duo.first.surroundings duo.first.rest
      (duo.first.backdrop.scene duo.commons.view)
    let after := Scene.play duo.second.surroundings duo.second.rest
      (duo.second.backdrop.scene before.2.space.registry)
    ((duo.finish .first).finish .second).first.endings? = some before.1 ∧
      ((duo.finish .first).finish .second).second.endings? = some after.1 ∧
        ((duo.finish .first).finish .second).commons.view = after.2.space.registry := by
  rcases duo.first.finish_view hsole with ⟨hbefore, hview⟩
  have hafter := duo.second.finish_view
    (hsole.of_joint_eq (h.first.local_finish.joint duo.commons))
  rw [hview] at hafter
  exact ⟨hbefore, hafter⟩

/-- What comes of turns that two clients take, however these go. -/
structure Serial (duo : Duo First Second) (turns : List Side) : Prop where
  completes : exists more, (duo.run (turns ++ more)).Done
  first_then_second : (duo.run turns).Done ->
    (duo.run turns).Alike ((duo.finish .first).finish .second)
  second_then_first : (duo.run turns).Done ->
    (duo.run turns).Alike ((duo.finish .second).finish .first)
  /-- Where nothing is shared, these are the rounds that run over the registry. -/
  running : (duo.run turns).Done -> duo.commons.Sole ->
    let before := Scene.play duo.first.surroundings duo.first.rest
      (duo.first.backdrop.scene duo.commons.view)
    let after := Scene.play duo.second.surroundings duo.second.rest
      (duo.second.backdrop.scene before.2.space.registry)
    (duo.run turns).first.endings? = some before.1 ∧
      (duo.run turns).second.endings? = some after.1 ∧
        (duo.run turns).commons.view = after.2.space.registry

theorem Apart.serial (h : duo.Apart publisher other) (turns : List Side) : Serial duo turns where
  completes := duo.exists_run_done turns
  first_then_second := h.run_alike
  second_then_first hdone := (h.run_alike hdone).trans h.finish_comm
  running hdone hsole := by
    rcases h.run_alike hdone with ⟨hfirst, hsecond, hcommons⟩
    have hfinish := h.finish_view hsole
    rw [<- hfirst, <- hsecond, <- hcommons.view] at hfinish
    exact hfinish

/-- Two publishers that start their rounds over the same instruments. -/
def start (first second : Publisher) (commons : Commons) (tasks others : List Task)
    (firstly : Surroundings First) (world : First)
    (secondly : Surroundings Second) (elsewhere : Second) : Duo First Second where
  commons
  first := .start first tasks firstly world
  second := .start second others secondly elsewhere

variable {first second : Publisher} {commons : Commons}

theorem apart_start (h : first.role ≠ second.role)
    (hunshared : commons.Unshared first.Owns second.Owns) (tasks others : List Task)
    (firstly : Surroundings First) (world : First)
    (secondly : Surroundings Second) (elsewhere : Second) :
    Apart first second
      (start first second commons tasks others firstly world secondly elsewhere) where
  separates := hunshared.separates h
  first := Task.keepsTo_rounds first tasks
  second := Task.keepsTo_rounds second others

/-- Over a registry whose instruments have one key each, roles take turns as they like. -/
theorem run_ofRegistry (h : first.role ≠ second.role) (registry : Metric.Registry)
    (tasks others : List Task) (firstly : Surroundings First) (world : First)
    (secondly : Surroundings Second) (elsewhere : Second) {turns : List Side} :
    let last := (start first second (.ofRegistry registry) tasks others firstly world
      secondly elsewhere).run turns
    let before := Scene.play firstly (Task.rounds first tasks)
      { space := .ofRegistry registry, stopping := false, world }
    let after := Scene.play secondly (Task.rounds second others)
      { space := .ofRegistry before.2.space.registry, stopping := false, world := elsewhere }
    last.Done ->
      last.first.endings? = some before.1 ∧ last.second.endings? = some after.1 ∧
        last.commons.view = after.2.space.registry := by
  intro last before after hdone
  have hsole := Metric.Commons.sole_ofRegistry registry
  have hrunning := ((apart_start h (hsole.unshared _ _) tasks others firstly world secondly
    elsewhere).serial turns).running hdone hsole
  simp only [start, Metric.Commons.view_ofRegistry] at hrunning
  exact hrunning

/--
Two publishers of different roles do not disturb each other unless an instrument is
under a key of each: whatever their flags, rounds, clusters and topics, and however
they take turns, each round ends and all keys are left as if all rounds of one role
had come before those of the other.
-/
theorem serial_of_roles (h : first.role ≠ second.role)
    (hunshared : commons.Unshared first.Owns second.Owns)
    (tasks others : List Task) (firstly : Surroundings First) (world : First)
    (secondly : Surroundings Second) (elsewhere : Second) (turns : List Side) :
    Serial (start first second commons tasks others firstly world secondly elsewhere) turns :=
  (apart_start h hunshared tasks others firstly world secondly elsewhere).serial turns

def consumers : Publisher :=
  { role := .consumer, flags := .all }

def surveyors : Publisher :=
  { role := .metadata, flags := .all }

/-- One window for all that consumers measure and for their topic of that name. -/
def doubled : Commons :=
  .ofCalls
    [.window (Metric.Key.latency .consumer).encode 2,
      .register (Metric.Key.topic .consumer Metric.Key.everything).encode (.made 0)] (by decide)

theorem unshared_doubled : doubled.Unshared consumers.Owns surveyors.Owns := by
  have hnames : doubled.view.names = [(Metric.Key.latency .consumer).encode,
      (Metric.Key.topic .consumer Metric.Key.everything).encode] := rfl
  refine Metric.Commons.unshared_of_names (fun text htext => ?_) _
  have howns : consumers.Owns text := by
    rw [hnames, List.mem_pair] at htext
    rcases htext with rfl | rfl
    · exact Publisher.owns rfl rfl
    · exact Publisher.owns rfl rfl
  exact howns.not_owns (by decide)

theorem serial_of_roles_everything :
    Role.consumer ≠ Role.metadata ∧ doubled.Unshared consumers.Owns surveyors.Owns ∧
      Serial
        (start consumers surveyors doubled
          [.sweep "probe-1:8080" .service, .sweep "probe-1:8080" .service] [.survey, .survey]
          Simulated.Cluster.surroundings
          (.ofTopology [{ name := Metric.Key.everything, numbers := [0, 1] }])
          Simulated.Cluster.surroundings (.ofTopology []))
        [.first, .second, .first, .second] :=
  ⟨by decide, unshared_doubled, serial_of_roles (by decide) unshared_doubled _ _ _ _ _ _ _⟩

def mingled : Commons :=
  .ofCalls
    [.window (Metric.Key.latency .consumer).encode 1,
      .register (Metric.Key.latency .metadata).encode (.made 0)] (by decide)

/-- A sweep of one partition, whose read takes five milliseconds, and a survey. -/
def rivals : Duo Simulated.Cluster Simulated.Cluster :=
  start consumers surveyors mingled
    [.sweep "probe-1:8080" (.fixed { addresses := ["probe-1:8080"] })] [.survey]
    Simulated.Cluster.surroundings
    { Simulated.Cluster.ofTopology [{ name := "orders", numbers := [0] }] with
      faults := { Simulated.Faults.none with latency := 5 } }
    Simulated.Cluster.surroundings (.ofTopology [])

def kept (registry : Metric.Registry) : List Nat :=
  match registry.get? (Metric.Key.latency .consumer).encode with
  | some (.window window) => window.values
  | _ => []

/-- The window keeps the latency of whoever comes last. -/
theorem rivals_not_serial :
    Role.consumer ≠ Role.metadata ∧
      ¬ Serial rivals (List.replicate 21 .first ++ List.replicate 9 .second) := by
  refine ⟨by decide, fun h => ?_⟩
  let last := rivals.run (List.replicate 21 .first ++ List.replicate 9 .second)
  have hend : (last.first.endings?.isSome = true ∧ last.second.endings?.isSome = true) ∧
      kept last.commons.view = [0] := by decide +kernel
  have hfinish : kept ((rivals.finish .second).finish .first).commons.view = [5] := by
    decide +kernel
  have hdone : last.Done :=
    ⟨Option.isSome_iff_ne_none.mp hend.1.1, Option.isSome_iff_ne_none.mp hend.1.2⟩
  have hview := (h.second_then_first hdone).commons.view
  have hkept : [0] = [5] := hend.2.symm.trans ((congrArg kept hview).trans hfinish)
  exact absurd hkept (by decide)

end Duo

end Round

end BrokerProbe
