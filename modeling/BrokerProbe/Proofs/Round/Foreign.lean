import BrokerProbe.Proofs.Metric.Foreign
import BrokerProbe.Proofs.Round.Filtering
import BrokerProbe.Proofs.Round.KeySet
/-!
# Rounds among the instruments of others

Rounds can be run over a registry that others use, whatever these have put
there, and under however many keys.  They ask and count as they do over an empty
registry, and leave alone what no key that they use leads to in its shape.
-/

namespace BrokerProbe

namespace Round

open Dialogue (Conversation GivenBy stateAfter)
open BrokerProbe.Metric (Orderly)
open BrokerProbe.Metric.Question (claimed)

/-!
# Rounds are orderly
-/

section Orderly

variable {exchanges : List Exchange} {ending : Ending}
variable {recorded : List (Dialogue.Exchange Metric.Question Metric.Answer)}

theorem orderly_read (handle : Metric.Handle) (latency : Metric.Statistics) :
    Orderly [⟨.read handle, latency⟩] where
  changes := by simp [Metric.Question.ChangesOnly]
  sets := by simp

namespace Sweep

variable {sweep : Sweep} {shard : Shard} {readings : List (Partition × Read)}

theorem Recorded.orderly (h : Recorded sweep shard recorded readings ending) :
    Orderly recorded := by
  have hprobing : forall {started tally probed result},
      Conversation (Metric.Tally.start sweep.publisher shard.topics) started tally ->
      Conversation (probeAll tally shard.topics.partitions) probed result ->
      Orderly (started ++ metricExchanges probed) := by
    intro started tally probed result hstarts hprobes
    exact .of_claims (probing_claims hstarts hprobes) fun good =>
      probing_changesOnly hstarts hprobes
  rcases h with ⟨hstarts, hprobes⟩ |
    @⟨_, shown, _, final, _, latency, _, hstarts, hprobes, hshows⟩
  · exact hprobing hstarts hprobes
  · have hclosing := (orderly_read final.overall latency).append
      (Metric.Publisher.orderly_showAvailability hshows)
    exact (hprobing hstarts hprobes).append hclosing

theorem orderly_round (h : Conversation sweep.round exchanges ending) :
    Orderly (metricExchanges exchanges) := by
  rcases round_way h with ⟨_, hshows⟩ | ⟨_, hmeasures⟩
  · simpa [Exchange.entered, Exchange.released] using
      Metric.Publisher.orderly_showAvailability hshows
  · simpa [Exchange.entered] using hmeasures.records.orderly

end Sweep

theorem Survey.orderly_record {survey : Survey} {elapsed : Nat} {failed : Bool}
    {ratio : Option Float} {latency : Metric.Statistics}
    (h : Conversation (survey.record elapsed failed ratio) recorded latency) :
    Orderly recorded := by
  rcases Survey.record_inv h with ⟨claim, handle, shown, key, rfl, hwindow, hshows⟩
  have hlatency : (Metric.Key.latency survey.role).kind.Windowed := rfl
  have hclaims := hwindow.asks (Metric.Publisher.asks_window _ hlatency _)
  have hclaimed : Orderly
      (claim ++ [⟨.record handle (Latency.recorded elapsed failed), ()⟩]) := by
    refine .of_claims (List.forall_mem_append.mpr
      ⟨hclaims, List.forall_mem_singleton.mpr trivial⟩) fun good hhands => ?_
    rw [List.forall_mem_append] at hhands ⊢
    rcases (Metric.Publisher.window_claim hwindow).changesOnly hhands.1 with ⟨hgood, hchanges⟩
    exact ⟨hchanges, List.forall_mem_singleton.mpr hgood⟩
  have hclosing := (Metric.Publisher.orderly_showAvailability hshows).append
    (orderly_read handle latency)
  have horderly := hclaimed.append hclosing
  rw [List.append_assoc] at horderly
  exact horderly

variable {publisher : Metric.Publisher} {task : Task}

theorem Task.orderly_round (h : Conversation (task.round publisher) exchanges ending) :
    Orderly (metricExchanges exchanges) := by
  cases task with
  | sweep address directory => exact Sweep.orderly_round h
  | survey =>
      rcases Survey.round_inv h with ⟨_, _, _, _, hrecord, _⟩
      exact Survey.orderly_record hrecord

theorem Task.asks_round_fits (publisher : Metric.Publisher) (task : Task) :
    (task.round publisher).Asks Question.Fits := by
  cases task with
  | sweep address directory =>
      exact Sweep.asks_round_fits { address, directory, publisher }
  | survey => exact Survey.asks_round_fits { publisher }

end Orderly

/-!
# The keys that rounds use
-/

section Enters

variable {role : Role} {planned : Except SetupError Shard} {ending other : Ending}
variable {key : Metric.Key}

theorem Enters.of_crashed (h : Enters role planned ending key)
    (hcrashed : other = .crashed -> ending = .crashed) : Enters role planned other key := by
  cases h with
  | latency hplan => exact .latency hplan
  | topic hplan htopic => exact .topic hplan htopic
  | partition hplan hpartition => exact .partition hplan hpartition
  | refused hplan => exact .refused hplan
  | probed hplan hpartition hfinishes => exact .probed hplan hpartition (hfinishes ∘ hcrashed)

theorem Ending.Alike.crashed_iff (h : ending.Alike other) :
    ending = .crashed <-> other = .crashed := by
  cases h with
  | completed outcome latency => exact iff_of_false nofun nofun
  | refused error => exact iff_of_false nofun nofun
  | crashed => exact Iff.rfl

theorem Enters.iff_of_alike (h : ending.Alike other) :
    Enters role planned ending key <-> Enters role planned other key :=
  ⟨fun henters => henters.of_crashed h.crashed_iff.mpr,
    fun henters => henters.of_crashed h.crashed_iff.mp⟩

end Enters

namespace Survey

variable {survey : Survey}

theorem claimed_record {recorded : List (Dialogue.Exchange Metric.Question Metric.Answer)}
    {elapsed : Nat} {failed : Bool} {ratio : Option Float} {latency : Metric.Statistics}
    (hflags : survey.publisher.flags = .all)
    (h : Conversation (survey.record elapsed failed ratio) recorded latency)
    (hgranted : forall exchange, exchange ∈ recorded -> Metric.Granted exchange) :
    claimed (recorded.map Dialogue.Exchange.question) =
      (Metric.Key.latency survey.role).encode ::
        if ratio.isSome then [(Metric.Key.availability survey.role).encode] else [] := by
  rcases record_inv h with ⟨claim, handle, shown, key, rfl, hwindow, hshows⟩
  rw [List.forall_mem_append] at hgranted
  have hasked := (Metric.Publisher.window_inv hflags hwindow hgranted.1).2
  have hshown := Metric.Publisher.claimed_showAvailability hflags hshows
  rw [List.map_append, List.map_cons, List.map_append, Metric.Question.claimed_append, hasked]
  show _ :: claimed (_ ++ _) = _
  rw [Metric.Question.claimed_append, hshown]
  exact congrArg _ (List.append_nil _)

theorem mem_names_play {registry : Metric.Registry} {text : String}
    (hflags : survey.publisher.flags = .all) (occasion : Occasion) (h : registry.Kinded) :
    text ∈ (occasion.play survey.round registry).2.names <->
      text ∈ registry.names ∨
        exists key : Metric.Key, key.encode = text ∧
          (key = .latency survey.role ∨ key = .availability survey.role) := by
  have hgranted : forall exchange,
      exchange ∈ metricExchanges (occasion.transcript survey.round registry) ->
        Metric.Granted exchange := fun _ hexchange =>
    (Scene.keeps_kinded occasion.surroundings survey.asks_round_fits h).1 _
      (ofMetric_mem hexchange)
  rcases Survey.round_inv (Dialogue.conversation_run (Scene.reply occasion.surroundings)
    survey.round (occasion.scene registry)) with ⟨_, _, _, _, hrecord, _⟩
  rw [Sweep.registry_play, Metric.Space.mem_names_stateAfter, Occasion.transcript,
    claimed_record hflags hrecord hgranted]
  refine or_congr_right ?_
  rw [Metric.availability, if_neg Nat.one_ne_zero, if_pos Option.isSome_some, List.mem_cons,
    List.mem_singleton]
  constructor
  · rintro (rfl | rfl)
    · exact ⟨_, rfl, .inl rfl⟩
    · exact ⟨_, rfl, .inr rfl⟩
  · rintro ⟨_, rfl, rfl | rfl⟩
    · exact .inl rfl
    · exact .inr rfl

end Survey

/-!
# The keys of one round
-/

namespace Turn

variable {flags : Metric.Flags} {turn : Turn} {text : String}

def recorded (turn : Turn) (flags : Metric.Flags) (registry : Metric.Registry) :
    List (Dialogue.Exchange Metric.Question Metric.Answer) :=
  metricExchanges (turn.occasion.transcript (turn.round flags) registry)

def outside (turn : Turn) (flags : Metric.Flags) (registry : Metric.Registry) :
    turn.occasion.World × Bool :=
  let played := Scene.play turn.occasion.surroundings (turn.round flags)
    (turn.occasion.scene registry)
  (played.2.world, played.2.stopping)

/-- Whether the round asks for the instrument of a key, by what it planned and how it ended. -/
def Uses (turn : Turn) (flags : Metric.Flags) (key : Metric.Key) : Prop :=
  flags.enabled key.kind = true ∧
    match turn.task with
    | .sweep address directory =>
        Enters turn.role
          (turn.occasion.planned
            { address, directory, publisher := { role := turn.role, flags } })
          (turn.play flags .empty).1 key
    | .survey => key = .latency turn.role ∨ key = .availability turn.role

theorem mem_names_play_all :
    text ∈ (turn.play .all .empty).2.names <->
      exists key, turn.Uses .all key ∧ key.encode = text := by
  simp only [Uses, Metric.Flags.enabled_all, true_and]
  rcases turn with ⟨role, task, occasion⟩
  cases task with
  | sweep address directory =>
      have hsweep := @Sweep.mem_names_play
        { address, directory, publisher := { role, flags := .all } } .empty text rfl occasion
        Metric.Registry.kinded_empty
      rw [or_iff_right nofun] at hsweep
      simp only [and_comm]
      exact hsweep
  | survey =>
      have hsurvey := @Survey.mem_names_play { publisher := { role, flags := .all } } .empty text
        rfl occasion Metric.Registry.kinded_empty
      rw [or_iff_right nofun] at hsurvey
      simp only [and_comm]
      exact hsurvey

theorem uses_iff_all {key : Metric.Key} :
    turn.Uses flags key <-> flags.enabled key.kind = true ∧ turn.Uses .all key := by
  simp only [Uses, Metric.Flags.enabled_all, true_and]
  refine and_congr_right fun _ => ?_
  have halike := (turn.play_filtered (Metric.Registry.restrict_empty flags.publishes).symm).1
  rcases turn with ⟨role, task, occasion⟩
  cases task with
  | sweep address directory => exact Enters.iff_of_alike halike
  | survey => exact Iff.rfl

theorem mem_claimed_recorded :
    text ∈ claimed ((turn.recorded flags .empty).map Dialogue.Exchange.question) <->
      exists key, turn.Uses flags key ∧ key.encode = text := by
  have hplay : (turn.play flags .empty).2 =
      (stateAfter Metric.Space.reply (.ofRegistry .empty)
        (turn.recorded flags .empty)).registry :=
    Sweep.registry_play (turn.round flags) turn.occasion .empty
  have hnames : text ∈ claimed ((turn.recorded flags .empty).map
      Dialogue.Exchange.question) <-> text ∈ (turn.play flags .empty).2.names := by
    rw [hplay, Metric.Space.mem_names_stateAfter]
    exact (or_iff_right nofun).symm
  have hfiltered := turn.play_filtered (Metric.Registry.restrict_empty flags.publishes).symm
  rw [hnames, hfiltered.2.1, Metric.Registry.mem_names_restrict, mem_names_play_all]
  constructor
  · rintro ⟨hpublished, key, huses, rfl⟩
    rw [Metric.Flags.publishes_encode] at hpublished
    exact ⟨key, uses_iff_all.mpr ⟨hpublished, huses⟩, rfl⟩
  · rintro ⟨key, huses, rfl⟩
    rcases uses_iff_all.mp huses with ⟨henabled, hall⟩
    exact ⟨(flags.publishes_encode key).trans henabled, key, hall, rfl⟩

end Turn

/-!
# One round over shared instruments
-/

/-- A round, with the flags of the publisher that it records through. -/
structure Stint extends Turn where
  flags : Metric.Flags

namespace Stint

variable {commons : Metric.Commons} {stint : Stint} {earlier : List Stint} {text : String}

def setting (stint : Stint) (commons : Metric.Commons) :
    Setting Metric.Hall stint.occasion.World :=
  { space := .ofCommons commons
    stopping := stint.occasion.stopping
    world := stint.occasion.world }

def reply (stint : Stint) (question : Question)
    (setting : Setting Metric.Hall stint.occasion.World) :
    Answer question × Setting Metric.Hall stint.occasion.World :=
  Setting.reply Metric.Hall.reply stint.occasion.surroundings question setting

def ask (stint : Stint) : Asking Ending :=
  stint.round stint.flags

def play (stint : Stint) (commons : Metric.Commons) : Ending × Metric.Commons :=
  let played := stint.ask.run stint.reply (stint.setting commons)
  (played.1, played.2.space.commons)

def outside (stint : Stint) (commons : Metric.Commons) : stint.occasion.World × Bool :=
  let played := stint.ask.run stint.reply (stint.setting commons)
  (played.2.world, played.2.stopping)

def transcript (stint : Stint) (commons : Metric.Commons) : List Exchange :=
  stint.ask.transcript stint.reply (stint.setting commons)

def calls (stint : Stint) (commons : Metric.Commons) : List Call :=
  Round.calls (stint.transcript commons)

def recorded (stint : Stint) (commons : Metric.Commons) :
    List (Dialogue.Exchange Metric.Question Metric.Answer) :=
  metricExchanges (stint.transcript commons)

def Uses (stint : Stint) (key : Metric.Key) : Prop :=
  stint.toTurn.Uses stint.flags key

theorem conversation (stint : Stint) (commons : Metric.Commons) :
    Conversation stint.ask (stint.transcript commons) (stint.play commons).1 :=
  Dialogue.conversation_run stint.reply stint.ask (stint.setting commons)

theorem givenBy_recorded (stint : Stint) (commons : Metric.Commons) :
    GivenBy Metric.Hall.reply (.ofCommons commons) (stint.recorded commons) :=
  (Setting.givenBy_metric
    (Dialogue.givenBy_transcript stint.reply stint.ask (stint.setting commons)).1).1

theorem play_snd (stint : Stint) (commons : Metric.Commons) :
    (stint.play commons).2 =
      commons.followAll ((stint.recorded commons).map Dialogue.Exchange.question) := by
  rcases Dialogue.givenBy_transcript stint.reply stint.ask (stint.setting commons) with
    ⟨hgiven, hafter⟩
  have hspace := (Setting.givenBy_metric hgiven).2
  have hcommons := Metric.Hall.commons_stateAfter (stint.recorded commons) (.ofCommons commons)
  rw [play, <- hafter]
  exact (congrArg Metric.Hall.commons hspace).trans hcommons

/-- What a round finds among the instruments shows in a latency at most. -/
theorem play_blindly (stint : Stint) (commons : Metric.Commons) (registry : Metric.Registry) :
    (stint.play commons).1.Alike (stint.toTurn.play stint.flags registry).1 ∧
      stint.outside commons = stint.toTurn.outside stint.flags registry ∧
      stint.calls commons = stint.toTurn.calls stint.flags registry ∧
      claimed ((stint.recorded commons).map Dialogue.Exchange.question) =
        claimed ((stint.toTurn.recorded stint.flags registry).map Dialogue.Exchange.question) := by
  have hpaired : (stint.setting commons).Paired Metric.blindly
      (stint.occasion.scene registry) := ⟨trivial, rfl, rfl⟩
  rcases stint.task.pairs_round (Metric.joins_blindly stint.flags) _ _ hpaired with
    ⟨halike, hafter, hseen⟩
  rcases eq_of_seen? hseen with ⟨hcalls, hclaims⟩
  refine ⟨halike, Prod.ext hafter.world hafter.stopping, hcalls, ?_⟩
  rw [claimed, claimed, List.filterMap_map, List.filterMap_map]
  exact hclaims

theorem mem_claimed_recorded :
    text ∈ claimed ((stint.recorded commons).map Dialogue.Exchange.question) <->
      exists key, stint.Uses key ∧ key.encode = text := by
  rw [(stint.play_blindly commons .empty).2.2.2]
  exact Turn.mem_claimed_recorded

theorem reaches_recorded (stint : Stint) (commons : Metric.Commons) :
    forall exchange, exchange ∈ stint.recorded commons -> exchange.question.Reaches stint.Uses := by
  have hasks := (stint.conversation commons).asks
    (stint.task.asks_round_fits { role := stint.role, flags := stint.flags })
  refine (Task.orderly_round (stint.conversation commons)).reaches
    (stint.givenBy_recorded commons) (fun _ hexchange => hasks _ (ofMetric_mem hexchange)) ?_
  intro key hkey
  rcases mem_claimed_recorded.mp hkey with ⟨other, hother, hencode⟩
  exact Metric.Key.encode_injective hencode ▸ hother

theorem play_view (stint : Stint) (h : commons.Sole) :
    stint.toTurn.play stint.flags commons.view =
      ((stint.play commons).1, (stint.play commons).2.view) := by
  have hplayed := Setting.play_seen stint.occasion.surroundings stint.ask
    (stint.setting commons) h
  exact congrArg (fun played => (played.1, played.2.space.registry)) hplayed

/-!
# Rounds in a row
-/

def leaves (earlier : List Stint) (commons : Metric.Commons) : Metric.Commons :=
  earlier.foldl (fun commons stint => (stint.play commons).2) commons

def asked : List Stint -> Metric.Commons -> List Metric.Question
  | [], _ => []
  | stint :: rest, commons =>
      (stint.recorded commons).map Dialogue.Exchange.question ++
        asked rest (stint.play commons).2

theorem leaves_eq_followAll (earlier : List Stint) (commons : Metric.Commons) :
    leaves earlier commons = commons.followAll (asked earlier commons) := by
  induction earlier generalizing commons with
  | nil => rfl
  | cons stint rest ih =>
      rw [asked, Metric.Commons.followAll_append, <- play_snd]
      exact ih _

theorem mem_claimed_asked :
    text ∈ claimed (asked earlier commons) <->
      exists used, used ∈ earlier ∧ exists key, used.Uses key ∧ key.encode = text := by
  induction earlier generalizing commons with
  | nil => simp [asked, claimed]
  | cons stint rest ih =>
      rw [asked, Metric.Question.claimed_append, List.mem_append, ih, mem_claimed_recorded,
        List.exists_mem_cons_iff]

theorem reaches_asked (earlier : List Stint) (commons : Metric.Commons) :
    forall question, question ∈ asked earlier commons -> question.Reaches fun key =>
      exists used, used ∈ earlier ∧ used.Uses key := by
  induction earlier generalizing commons with
  | nil => simp [asked]
  | cons stint rest ih =>
      rw [asked, List.forall_mem_append, List.forall_mem_map]
      constructor
      · intro exchange hexchange
        exact (stint.reaches_recorded commons exchange hexchange).mono fun key huses =>
          ⟨stint, List.mem_cons_self, huses⟩
      · intro question hquestion
        exact (ih _ question hquestion).mono fun key ⟨used, hused, huses⟩ =>
          ⟨used, List.mem_cons_of_mem _ hused, huses⟩

end Stint

/--
What holds of rounds over instruments that others use, whatever these are and however
many keys they have: a round that follows on others does what it would do had there been
none at first, and the rounds leave alone what is not theirs.
-/
structure Coexists (commons : Metric.Commons) (earlier : List Stint) (stint : Stint) :
    Prop where
  ending : (stint.play (Stint.leaves earlier commons)).1.Alike
    (stint.play (Stint.leaves earlier .empty)).1
  calls : stint.calls (Stint.leaves earlier commons) = stint.calls (Stint.leaves earlier .empty)
  outside : stint.outside (Stint.leaves earlier commons) =
    stint.outside (Stint.leaves earlier .empty)
  names : forall text, text ∈ (Stint.leaves earlier commons).view.names <->
    text ∈ commons.view.names ∨
      exists used, used ∈ earlier ∧ exists key, used.Uses key ∧ key.encode = text
  identity : forall number, commons.pool.Has number -> forall key,
    (Stint.leaves earlier commons).pool.held? key = some number <->
      commons.pool.held? key = some number
  shape : forall number, commons.pool.Has number ->
    ((Stint.leaves earlier commons).pool.contents number).shape =
      (commons.pool.contents number).shape
  /-- It changes only through a key that a round uses and that has its shape. -/
  contents : forall number, commons.pool.Has number ->
    (forall used, used ∈ earlier -> forall key, used.Uses key ->
      commons.pool.held? key.encode = some number ->
      (commons.pool.contents number).shape ≠ key.kind.shape) ->
    (Stint.leaves earlier commons).pool.contents number = commons.pool.contents number
  /-- A gauge that has the key of a window alone, or a window that of a gauge, stays as it is. -/
  foreign : forall (key : Metric.Key) held, commons.view.get? key.encode = some held ->
    held.shape ≠ key.kind.shape -> commons.Alone key.encode ->
    (Stint.leaves earlier commons).view.get? key.encode = some held
  /-- So does what has none of the keys that rounds use. -/
  untouched : forall text,
    (forall used, used ∈ earlier -> forall key, used.Uses key ->
      ¬ commons.Joint key.encode text) ->
    (Stint.leaves earlier commons).view.get? text = commons.view.get? text
  /-- Where nothing is shared, the round is the one that runs over the registry. -/
  running : commons.Sole ->
    stint.toTurn.play stint.flags (Stint.leaves earlier commons).view =
      ((stint.play (Stint.leaves earlier commons)).1,
        (stint.play (Stint.leaves earlier commons)).2.view)

theorem Ending.Alike.of_alike {ending other third : Ending} (h : ending.Alike third)
    (hother : other.Alike third) : ending.Alike other := by
  cases h with
  | completed outcome latency =>
      generalize hthird : Ending.completed { outcome with latency } = third at hother
      cases hother with
      | completed before after =>
          have hbefore : before = { outcome with latency := before.latency } := by
            rcases before with ⟨_, _, _, _, _, _, _, _⟩
            cases hthird
            rfl
          rw [hbefore]
          exact .completed outcome _
      | refused error => cases hthird
      | crashed => cases hthird
  | refused error =>
      cases hother
      exact .refused error
  | crashed =>
      cases hother
      exact .crashed

/-- Rounds get along with whatever others have in the registry. -/
theorem coexists (commons : Metric.Commons) (earlier : List Stint) (stint : Stint) :
    Coexists commons earlier stint := by
  have hreaches := Stint.reaches_asked earlier commons
  have hleaves := Stint.leaves_eq_followAll earlier commons
  rcases stint.play_blindly (Stint.leaves earlier commons) .empty with
    ⟨hending, houtside, hcalls, _⟩
  rcases stint.play_blindly (Stint.leaves earlier .empty) .empty with
    ⟨hending', houtside', hcalls', _⟩
  -- Over either registry the round goes in step with one over the empty one.
  refine ⟨hending.of_alike hending', hcalls.trans hcalls'.symm, houtside.trans houtside'.symm,
    ?_, ?_, ?_, ?_, ?_, ?_, ?_⟩
  · intro text
    rw [hleaves, Metric.Commons.mem_names_followAll, Stint.mem_claimed_asked]
  · intro number h key
    rw [hleaves]
    exact Metric.Commons.held?_followAll_iff h
  · intro number h
    rw [hleaves]
    exact Metric.Commons.shape_followAll h
  · intro number h huses
    rw [hleaves]
    exact Metric.Commons.contents_followAll h hreaches
      fun key ⟨used, hused, huse⟩ => huses used hused key huse
  · intro key held hheld hshape halone
    rw [hleaves]
    refine Metric.Commons.get?_followAll_of_shape_ne hreaches hheld ?_
    -- No key but this one leads to the instrument, and its shape is not that of the key.
    intro other _ hjoint
    cases Metric.Key.encode_injective (halone _ hjoint)
    exact hshape
  · intro text huses
    rw [hleaves]
    refine Metric.Commons.get?_followAll_of_not_joint fun question hquestion own hown => ?_
    rcases (hreaches question hquestion).exists_key hown with ⟨key, ⟨used, hused, huse⟩, rfl⟩
    exact huses used hused key huse
  · intro hsole
    rw [hleaves]
    exact stint.play_view (hsole.followAll _)

def tangled : Metric.Commons :=
  .ofCalls
    [.gauge "x", .register (Metric.Key.latency .metadata).encode (.made 0),
      .register (Metric.Key.availability .metadata).encode (.made 0)] (by decide)

def plainSurvey : Stint where
  role := .metadata
  task := .survey
  occasion := {
    World := Simulated.Cluster
    surroundings := Simulated.Cluster.surroundings
    world := .ofTopology []
    stopping := false }
  flags := .all

/--
A round sets the gauge through the one key that it is meant for, and so it changes under a
key that no round uses, and under one where windows belong.
-/
theorem sets_tangled :
    (forall key, plainSurvey.Uses key -> key.encode ≠ "x") ∧ (0 : Float) ≠ 1 ∧
      forall text, text = "x" ∨ text = (Metric.Key.latency .metadata).encode ->
        tangled.view.get? text = some (.gauge 0) ∧
          (Stint.leaves [plainSurvey] tangled).view.get? text = some (.gauge 1) := by
  refine ⟨?_, by decide, ?_⟩
  · rintro key ⟨_, rfl | rfl⟩ <;> decide
  · rintro _ (rfl | rfl)
    · exact ⟨rfl, rfl⟩
    · exact ⟨rfl, rfl⟩

end Round

end BrokerProbe
