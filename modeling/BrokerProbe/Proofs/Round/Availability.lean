import BrokerProbe.Proofs.Metric.Handles
import BrokerProbe.Proofs.Round.Protocol
import BrokerProbe.Proofs.Round.Series
/-!
# The availability that is shown

The gauge of a role's availability shows what the latest round had to say about
it.  A round over partitions that was refused says zero, one that probed says
the share of good reads, and one that had nothing to probe says nothing, so
what was shown before stays.
-/

namespace BrokerProbe

open Dialogue (Conversation GivenBy stateAfter)

/-!
# Showing a value
-/

namespace Metric

variable {publisher : Publisher} {ratio : Option Float} {shown : Option String}
variable {exchanges : List (Dialogue.Exchange Question Answer)} {space : Space}

theorem availability_once (failed : Bool) :
    availability 1 (if failed then 1 else 0) = some (if failed then 0 else 1) := by
  cases failed with
  | false => decide
  | true => decide

def Publisher.shows (publisher : Publisher) (ratio : Option Float) (held : Option Instrument) :
    Option Instrument :=
  if publisher.flags.availability then (ratio.map Instrument.gauge).or held else held

@[simp] theorem Publisher.shows_none (held : Option Instrument) :
    publisher.shows none held = held := by
  unfold shows
  split <;> rfl

theorem Publisher.get?_showAvailability
    (h : Conversation (publisher.showAvailability ratio) exchanges shown)
    (hgiven : GivenBy Space.reply space exchanges)
    (hgauge : forall held,
      space.registry.get? (Key.availability publisher.role).encode ≠ some (.window held)) :
    (stateAfter Space.reply space exchanges).registry.get?
        (Key.availability publisher.role).encode =
      publisher.shows ratio
        (space.registry.get? (Key.availability publisher.role).encode) := by
  unfold Publisher.showAvailability at h
  unfold shows
  split at h
  · next hflag =>
    rw [if_pos hflag]
    cases ratio with
    | none =>
        rcases h.done_inv with ⟨rfl, rfl⟩
        rfl
    | some value =>
        rcases h.request_bind_inv with ⟨answer, rest, rfl, hrest⟩
        rcases Dialogue.givenBy_cons.mp hgiven with ⟨hanswer, _⟩
        rw [Space.reply_gauge_fst] at hanswer
        split at hanswer
        · next held hheld => exact absurd hheld (hgauge held)
        · subst hanswer
          rcases hrest.request_bind_inv with ⟨_, nothing, rfl, hdone⟩
          rcases hdone.done_inv with ⟨rfl, rfl⟩
          show ((space.reply (.gauge _)).2.reply (.set _ value)).2.registry.get? _ = _
          rw [Space.get?_reply_own rfl, Space.get?_reply_own rfl]
          rcases hheld : space.registry.get? (Key.availability publisher.role).encode with
            _ | held | earlier
          · rfl
          · exact absurd hheld (hgauge held)
          · rfl
  · next hflag =>
    rcases h.done_inv with ⟨rfl, rfl⟩
    rw [if_neg hflag]
    rfl

end Metric

namespace Round

def Ending.shown? : Ending -> Option Float
  | completed outcome => outcome.availability
  | refused _ => some 0
  | crashed => none

variable {exchanges : List Exchange} {tally : Metric.Tally} {partitions : List Partition}
variable {result : Option Metric.Tally} {good : Metric.Handle -> Prop}

theorem Sweep.probeAll_changesOnly
    (h : Conversation (probeAll tally partitions) exchanges result)
    (hhands : forall exchange, exchange ∈ metricExchanges exchanges ->
      Metric.Hands good exchange)
    (hoverall : good tally.overall) (hbeside : tally.Beside good) :
    forall exchange, exchange ∈ metricExchanges exchanges ->
      exchange.question.ChangesOnly good := by
  induction partitions generalizing tally exchanges with
  | nil =>
      rcases h.done_inv with ⟨rfl, rfl⟩
      simp
  | cons partition rest ih =>
      rcases h.bind_inv with ⟨first, probed, second, rfl, hfirst, hsecond⟩
      rcases probe_inv hfirst with _ | @⟨elapsed, answer, recorded, middle, hrecorded⟩
      · rcases hsecond.done_inv with ⟨rfl, rfl⟩
        simp
      · rcases Metric.Tally.recordOutcome_keeps hrecorded with ⟨beside, rfl, hkeeps⟩
        rw [metricExchanges_probed, List.cons_append, List.forall_mem_cons,
          List.forall_mem_append] at hhands ⊢
        have hmiddle := hkeeps hhands.2.1 hbeside
        refine ⟨hoverall, hmiddle.changesOnly, ?_⟩
        exact ih hsecond hhands.2.2 (hmiddle.overall ▸ hoverall) hmiddle.beside

section Probing

variable {publisher : Metric.Publisher} {topics : Topology}
variable {started : List (Dialogue.Exchange Metric.Question Metric.Answer)}
variable (hstarts : Conversation (Metric.Tally.start publisher topics) started tally)
variable (hprobes : Conversation (Sweep.probeAll tally partitions) exchanges result)

include hstarts hprobes

theorem Sweep.probing_claims :
    forall exchange, exchange ∈ started ++ metricExchanges exchanges ->
      exchange.question.Claims Metric.Kind.Windowed := by
  rw [List.forall_mem_append]
  constructor
  · exact hstarts.asks (Metric.Tally.asks_start Metric.Kind.Windowed rfl rfl rfl _ _)
  · exact forall_metricExchanges (hprobes.asks
      (asks_probeAll_claims Metric.Kind.Windowed rfl rfl _ _))

theorem Sweep.probing_changesOnly
    (hhands : forall exchange, exchange ∈ started ++ metricExchanges exchanges ->
      Metric.Hands good exchange) :
    forall exchange, exchange ∈ started ++ metricExchanges exchanges ->
      exchange.question.ChangesOnly good := by
  rw [List.forall_mem_append] at hhands ⊢
  rcases Metric.Tally.start_split hstarts with ⟨first, second, overall, rfl, hwindow, hplans⟩
  rw [List.forall_mem_append] at hhands ⊢
  rcases (Metric.Publisher.window_claim hwindow).changesOnly hhands.1.1 with
    ⟨hoverall, hfirst⟩
  have hkeeps := Metric.Tally.foldlM_keeps Metric.Tally.plan_keeps hplans hhands.1.2
    Metric.Tally.beside_opened
  refine ⟨⟨hfirst, hkeeps.changesOnly⟩, ?_⟩
  exact probeAll_changesOnly hprobes hhands.2 (hkeeps.overall ▸ hoverall) hkeeps.beside

theorem Sweep.probing_spares {space : Metric.Space} (role : Role)
    (hgiven : GivenBy Metric.Space.reply space (started ++ metricExchanges exchanges)) :
    forall exchange, exchange ∈ started ++ metricExchanges exchanges ->
      exchange.question.Spares (Metric.Key.availability role).encode := by
  have hkey : ¬ (Metric.Key.availability role).kind.Windowed := nofun
  have hclaims := probing_claims hstarts hprobes
  have hhands := ((space.reserves_published hkey).hands_givenBy hgiven hclaims).1
  have hchanges := probing_changesOnly hstarts hprobes hhands
  intro exchange hexchange
  exact (hclaims exchange hexchange).spares hkey (hchanges exchange hexchange)

end Probing

variable {World : Type}

/-!
# One round
-/

def Gauged (registry : Metric.Registry) (role : Role) : Prop :=
  forall held, registry.get? (Metric.Key.availability role).encode ≠ some (.window held)

theorem Sweep.Recorded.get?_stateAfter {sweep : Sweep} {shard : Shard} {ending : Ending}
    {recorded : List (Dialogue.Exchange Metric.Question Metric.Answer)}
    {readings : List (Partition × Read)} {space : Metric.Space}
    (h : Recorded sweep shard recorded readings ending)
    (hgiven : GivenBy Metric.Space.reply space recorded)
    (hgauge : Gauged space.registry sweep.role) :
    (stateAfter Metric.Space.reply space recorded).registry.get?
        (Metric.Key.availability sweep.role).encode =
      sweep.publisher.shows ending.shown?
        (space.registry.get? (Metric.Key.availability sweep.role).encode) := by
  cases h with
  | crashed hstarts hprobes =>
      rw [Metric.Space.get?_stateAfter hgiven
        (probing_spares hstarts hprobes sweep.role hgiven)]
      exact (Metric.Publisher.shows_none _).symm
  | completed hstarts hprobes hshows =>
      rw [Dialogue.givenBy_append, Dialogue.givenBy_cons, Metric.Space.reply_read_snd] at hgiven
      have hspared := Metric.Space.get?_stateAfter hgiven.1
        (probing_spares hstarts hprobes sweep.role hgiven.1)
      have hshown := Metric.Publisher.get?_showAvailability hshows hgiven.2.2
        (fun held => hspared ▸ hgauge held)
      rw [Dialogue.stateAfter_append, Dialogue.stateAfter_cons, Metric.Space.reply_read_snd]
      exact hshown.trans (congrArg _ hspared)

theorem Sweep.Way.get?_stateAfter {sweep : Sweep} {ending : Ending} {space : Metric.Space}
    (h : Way sweep exchanges ending)
    (hgiven : GivenBy Metric.Space.reply space (metricExchanges exchanges))
    (hgauge : Gauged space.registry sweep.role) :
    (stateAfter Metric.Space.reply space (metricExchanges exchanges)).registry.get?
        (Metric.Key.availability sweep.role).encode =
      sweep.publisher.shows ending.shown?
        (space.registry.get? (Metric.Key.availability sweep.role).encode) := by
  rcases h with @⟨elapsed, setUp, error, shown, key, hplan, hshows⟩ |
    @⟨elapsed, setUp, shard, measuring, _, hplan, hmeasures⟩
  · have hmetric : metricExchanges
        (.entered sweep.role .idle .planning :: (setUp.exchanges sweep.directory elapsed ++
          .released :: shown.map Exchange.ofMetric)) = shown := by
      simp [Exchange.entered, Exchange.released]
    rw [hmetric] at hgiven ⊢
    exact Metric.Publisher.get?_showAvailability hshows hgiven hgauge
  · have hmetric : metricExchanges
        (.entered sweep.role .idle .planning ::
          (setUp.exchanges sweep.directory elapsed ++ measuring)) =
        metricExchanges measuring := by
      simp [Exchange.entered]
    rw [hmetric] at hgiven ⊢
    exact hmeasures.records.get?_stateAfter hgiven hgauge

theorem Sweep.get?_play (sweep : Sweep) (surroundings : Surroundings World)
    (scene : Scene World) (hgauge : Gauged scene.space.registry sweep.role) :
    (Scene.play surroundings sweep.round scene).2.space.registry.get?
        (Metric.Key.availability sweep.role).encode =
      sweep.publisher.shows (Scene.play surroundings sweep.round scene).1.shown?
        (scene.space.registry.get? (Metric.Key.availability sweep.role).encode) := by
  rcases Dialogue.givenBy_transcript (Scene.reply surroundings) sweep.round scene with
    ⟨hgiven, hafter⟩
  rcases Scene.givenBy_metric hgiven with ⟨hmetric, hspace⟩
  rw [hafter] at hspace
  rw [Scene.play, hspace]
  exact (round_way (Dialogue.conversation_run _ _ _)).get?_stateAfter hmetric hgauge

theorem Survey.get?_record {survey : Survey} {elapsed : Nat} {failed : Bool}
    {ratio : Option Float} {recorded : List (Dialogue.Exchange Metric.Question Metric.Answer)}
    {latency : Metric.Statistics} {space : Metric.Space}
    (h : Conversation (survey.record elapsed failed ratio) recorded latency)
    (hgiven : GivenBy Metric.Space.reply space recorded)
    (hgauge : Gauged space.registry survey.role) :
    (stateAfter Metric.Space.reply space recorded).registry.get?
        (Metric.Key.availability survey.role).encode =
      survey.publisher.shows ratio
        (space.registry.get? (Metric.Key.availability survey.role).encode) := by
  rcases Survey.record_inv h with ⟨claimed, handle, shown, key, rfl, hwindow, hshows⟩
  rw [Dialogue.givenBy_append, Dialogue.givenBy_cons, Dialogue.givenBy_append] at hgiven
  rcases hgiven with ⟨hclaimed, _, hshown, _⟩
  have hkey : ¬ (Metric.Key.availability survey.role).kind.Windowed := nofun
  rcases (Metric.Publisher.window_claim hwindow).spares hclaimed rfl hkey with
    ⟨hhandle, hspares⟩
  have hrecord : (Metric.Question.record handle (Latency.recorded elapsed failed)).Claims
      Metric.Kind.Windowed := trivial
  have hspared := (Metric.Space.get?_reply_spared (hrecord.spares hkey hhandle) _).trans
    (Metric.Space.get?_stateAfter hclaimed hspares)
  have hafter := Metric.Publisher.get?_showAvailability hshows hshown
    (fun held => hspared ▸ hgauge held)
  rw [Dialogue.stateAfter_append, Dialogue.stateAfter_cons, Dialogue.stateAfter_append,
    Dialogue.stateAfter_cons, Metric.Space.reply_read_snd]
  exact hafter.trans (congrArg _ hspared)

theorem Survey.get?_play (survey : Survey) (surroundings : Surroundings World)
    (scene : Scene World) (hgauge : Gauged scene.space.registry survey.role) :
    (Scene.play surroundings survey.round scene).2.space.registry.get?
        (Metric.Key.availability survey.role).encode =
      survey.publisher.shows
        (some (if isFailure (surroundings.fetch scene.world).1.value then 0 else 1))
        (scene.space.registry.get? (Metric.Key.availability survey.role).encode) := by
  rcases Dialogue.givenBy_transcript (Scene.reply surroundings) survey.round scene with
    ⟨hgiven, hafter⟩
  rcases Scene.givenBy_metric hgiven with ⟨hmetric, hspace⟩
  rcases round_inv (Dialogue.conversation_run (Scene.reply surroundings) survey.round scene)
    with ⟨fetched, rest, latency, htranscript, hrecord, _⟩
  rw [htranscript] at hgiven
  obtain rfl : fetched = (surroundings.fetch scene.world).1 :=
    (Dialogue.givenBy_cons.mp hgiven).1
  rw [Scene.play, <- hafter, hspace, get?_record hrecord hmetric hgauge,
    Metric.availability_once]

/-!
# Gauges after rounds in a row
-/

variable {asking : Asking Ending} {publisher : Metric.Publisher} {registry : Metric.Registry}

/-- Whether a round leaves its role's gauge alone but for a value that its publisher shows. -/
def Shows (asking : Asking Ending) (publisher : Metric.Publisher) : Prop :=
  forall (occasion : Occasion) (registry : Metric.Registry),
    Gauged registry publisher.role ->
    exists ratio,
      (occasion.play asking registry).2.get? (Metric.Key.availability publisher.role).encode =
        publisher.shows ratio
          (registry.get? (Metric.Key.availability publisher.role).encode)

theorem Sweep.get?_occasion (sweep : Sweep) (occasion : Occasion)
    (hgauge : Gauged registry sweep.role) :
    (occasion.play sweep.round registry).2.get? (Metric.Key.availability sweep.role).encode =
      sweep.publisher.shows (occasion.play sweep.round registry).1.shown?
        (registry.get? (Metric.Key.availability sweep.role).encode) :=
  sweep.get?_play occasion.surroundings
    { space := .ofRegistry registry, stopping := occasion.stopping, world := occasion.world }
    hgauge

theorem Survey.get?_occasion (survey : Survey) (occasion : Occasion)
    (hgauge : Gauged registry survey.role) :
    (occasion.play survey.round registry).2.get? (Metric.Key.availability survey.role).encode =
      survey.publisher.shows (some (if isFailure occasion.fetched then 0 else 1))
        (registry.get? (Metric.Key.availability survey.role).encode) :=
  survey.get?_play occasion.surroundings
    { space := .ofRegistry registry, stopping := occasion.stopping, world := occasion.world }
    hgauge

theorem Sweep.shows (sweep : Sweep) : Shows sweep.round sweep.publisher :=
  fun occasion _ hgauge => ⟨_, sweep.get?_occasion occasion hgauge⟩

theorem Survey.shows (survey : Survey) : Shows survey.round survey.publisher :=
  fun occasion _ hgauge => ⟨_, survey.get?_occasion occasion hgauge⟩

theorem Shows.gauged_play (h : Shows asking publisher) (occasion : Occasion)
    (hgauge : Gauged registry publisher.role) :
    Gauged (occasion.play asking registry).2 publisher.role := by
  intro held
  rcases h occasion registry hgauge with ⟨ratio, hshown⟩
  rw [hshown, Metric.Publisher.shows]
  split
  · cases ratio with
    | none => exact hgauge held
    | some value => nofun
  · exact hgauge held

theorem Shows.gauged_series (h : Shows asking publisher) (occasions : List Occasion)
    (hgauge : Gauged registry publisher.role) :
    Gauged (series asking occasions registry).2 publisher.role := by
  induction occasions generalizing registry with
  | nil => exact hgauge
  | cons occasion rest ih => exact ih (h.gauged_play occasion hgauge)

theorem Shows.get?_series_withheld (h : Shows asking publisher)
    (hflag : publisher.flags.availability = false) (occasions : List Occasion)
    (hgauge : Gauged registry publisher.role) :
    (series asking occasions registry).2.get? (Metric.Key.availability publisher.role).encode =
      registry.get? (Metric.Key.availability publisher.role).encode := by
  induction occasions generalizing registry with
  | nil => rfl
  | cons occasion rest ih =>
      rcases h occasion registry hgauge with ⟨ratio, hshown⟩
      rw [Metric.Publisher.shows, hflag, if_neg Bool.false_ne_true] at hshown
      exact (ih (h.gauged_play occasion hgauge)).trans hshown

theorem Sweep.get?_series (sweep : Sweep) (hflag : sweep.publisher.flags.availability = true)
    (occasions : List Occasion) (hgauge : Gauged registry sweep.role) :
    (series sweep.round occasions registry).2.get?
        (Metric.Key.availability sweep.role).encode =
      (((series sweep.round occasions registry).1.filterMap Ending.shown?).getLast?.map
        Metric.Instrument.gauge).or
          (registry.get? (Metric.Key.availability sweep.role).encode) := by
  induction occasions generalizing registry with
  | nil => rfl
  | cons occasion rest ih =>
      have hplay := sweep.get?_occasion occasion hgauge
      rw [Metric.Publisher.shows, if_pos hflag] at hplay
      rw [series, ih (sweep.shows.gauged_play occasion hgauge), hplay]
      cases hshown : (occasion.play sweep.round registry).1.shown? with
      | none => rw [List.filterMap_cons_none hshown, Option.map_none, Option.none_or]
      | some value =>
          rw [List.filterMap_cons_some hshown, List.getLast?_cons]
          rcases ((series sweep.round rest (occasion.play sweep.round registry).2).1.filterMap
            Ending.shown?).getLast? with _ | latest <;> rfl

/-!
# Silent rounds
-/

namespace Ending

/-- Whether a round says nothing about the availability: it probed nothing, or broke off. -/
def Silent : Ending -> Prop
  | completed outcome => outcome.tries = 0
  | refused _ => False
  | crashed => True

/-- Whether the availability of a round is that of its counts. -/
def Fair : Ending -> Prop
  | completed outcome =>
      outcome.availability = Metric.availability outcome.tries outcome.failures
  | _ => True

theorem shown?_eq_none_iff {ending : Ending} (h : ending.Fair) :
    ending.shown? = none <-> ending.Silent := by
  cases ending with
  | completed outcome =>
      have hfair : outcome.availability = _ := h
      simp [shown?, Silent, hfair, Metric.availability]
  | refused error => simp [shown?, Silent]
  | crashed => simp [shown?, Silent]

end Ending

theorem Sweep.Way.fair {sweep : Sweep} {ending : Ending} (h : Way sweep exchanges ending) :
    ending.Fair := by
  rcases h with _ | ⟨_, hmeasures⟩
  · trivial
  · cases ending with
    | completed outcome =>
        rcases hmeasures.completed_inv with ⟨_, _, latency, rfl⟩
        rfl
    | _ => trivial

theorem Sweep.fair_series (sweep : Sweep) (occasions : List Occasion)
    (registry : Metric.Registry) :
    forall ending, ending ∈ (series sweep.round occasions registry).1 -> ending.Fair := by
  induction occasions generalizing registry with
  | nil => simp [series]
  | cons occasion rest ih =>
      have hplay : (occasion.play sweep.round registry).1.Fair :=
        (round_way (Dialogue.conversation_run (Scene.reply occasion.surroundings) _ _)).fair
      rw [series, List.forall_mem_cons]
      exact ⟨hplay, ih _⟩

/-- What the gauge of a sweep shows after rounds in a row. -/
structure Sweep.Tells (sweep : Sweep) (occasions : List Occasion) (registry : Metric.Registry) :
    Prop where
  absent_iff :
    (series sweep.round occasions registry).2.get?
        (Metric.Key.availability sweep.role).encode = none <->
      forall ending, ending ∈ (series sweep.round occasions registry).1 -> ending.Silent
  /-- A round that was refused leaves zero, until another one has something to say. -/
  refused : forall earlier error later,
    (series sweep.round occasions registry).1 = earlier ++ .refused error :: later ->
    (forall ending, ending ∈ later -> ending.Silent) ->
    (series sweep.round occasions registry).2.get?
      (Metric.Key.availability sweep.role).encode = some (.gauge 0)
  probed : forall earlier outcome later,
    (series sweep.round occasions registry).1 = earlier ++ .completed outcome :: later ->
    outcome.tries ≠ 0 ->
    (forall ending, ending ∈ later -> ending.Silent) ->
    exists ratio, outcome.availability = some ratio ∧
      (series sweep.round occasions registry).2.get?
        (Metric.Key.availability sweep.role).encode = some (.gauge ratio)

theorem Sweep.tells (sweep : Sweep) (hflag : sweep.publisher.flags.availability = true)
    (habsent : registry.get? (Metric.Key.availability sweep.role).encode = none)
    (occasions : List Occasion) : sweep.Tells occasions registry := by
  have hgauge : Gauged registry sweep.role := fun held => by simp [habsent]
  have hshown := sweep.get?_series hflag occasions hgauge
  have hfair := sweep.fair_series occasions registry
  rw [habsent, Option.or_none] at hshown
  have hlatest : forall {earlier ending later value},
      (series sweep.round occasions registry).1 = earlier ++ ending :: later ->
      (forall ending, ending ∈ later -> ending.Silent) -> ending.shown? = some value ->
      (series sweep.round occasions registry).2.get?
        (Metric.Key.availability sweep.role).encode = some (.gauge value) := by
    intro earlier ending later value hendings hsilent hvalue
    rw [hendings, List.forall_mem_append, List.forall_mem_cons] at hfair
    have hlater : later.filterMap Ending.shown? = [] :=
      List.filterMap_eq_nil_iff.mpr fun ending hending =>
        (Ending.shown?_eq_none_iff (hfair.2.2 ending hending)).mpr (hsilent ending hending)
    rw [hshown, hendings, List.filterMap_append, List.filterMap_cons_some hvalue, hlater,
      List.getLast?_concat, Option.map_some]
  refine ⟨?_, ?_, ?_⟩
  · rw [hshown, Option.map_eq_none_iff, List.getLast?_eq_none_iff, List.filterMap_eq_nil_iff]
    exact forall₂_congr fun ending hending => Ending.shown?_eq_none_iff (hfair ending hending)
  · exact fun earlier error later hendings hsilent => hlatest hendings hsilent rfl
  · intro earlier outcome later hendings htries hsilent
    cases hratio : outcome.availability with
    | none =>
        have hcompleted := hfair (.completed outcome) (by simp [hendings])
        exact absurd ((Ending.shown?_eq_none_iff hcompleted).mp hratio) htries
    | some ratio => exact ⟨ratio, rfl, hlatest hendings hsilent hratio⟩

structure ShowsAvailability (publisher : Metric.Publisher) (registry : Metric.Registry) :
    Prop where
  sweeps : publisher.flags.availability = true -> forall address directory occasions,
    Sweep.Tells { address, directory, publisher } occasions registry
  /-- A survey always has something to say: whether its fetch went well. -/
  surveys : publisher.flags.availability = true -> forall earlier occasion,
    (series (Survey.round { publisher }) (earlier ++ [occasion]) registry).2.get?
        (Metric.Key.availability publisher.role).encode =
      some (.gauge (if Survey.isFailure occasion.fetched then 0 else 1))
  /-- What may not be published never comes up. -/
  withheld : publisher.flags.availability = false -> forall occasions,
    (series (Survey.round { publisher }) occasions registry).2.get?
        (Metric.Key.availability publisher.role).encode = none ∧
      forall address directory,
        (series (Sweep.round { address, directory, publisher }) occasions registry).2.get?
          (Metric.Key.availability publisher.role).encode = none

/-- No round leaves an availability in place that it has itself overtaken. -/
theorem availability_kept_current
    (habsent : registry.get? (Metric.Key.availability publisher.role).encode = none) :
    ShowsAvailability publisher registry := by
  have hgauge : Gauged registry publisher.role := fun held => by simp [habsent]
  refine ⟨?_, ?_, ?_⟩
  · intro hflag address directory occasions
    exact Sweep.tells { address, directory, publisher } hflag habsent occasions
  · intro hflag earlier occasion
    have hbefore := (Survey.shows { publisher }).gauged_series earlier hgauge
    have hlast := Survey.get?_occasion { publisher } occasion hbefore
    rw [Metric.Publisher.shows, if_pos hflag] at hlast
    rw [series_append_snd]
    exact hlast
  · intro hflag occasions
    constructor
    · exact ((Survey.shows { publisher }).get?_series_withheld hflag occasions hgauge).trans habsent
    · intro address directory
      exact ((Sweep.shows { address, directory, publisher }).get?_series_withheld hflag occasions
        hgauge).trans habsent

def contested : Metric.Registry :=
  Metric.Registry.empty.install (Metric.Key.latency .consumer).encode (.gauge 3)

theorem availability_kept_current_contested :
    contested.get? (Metric.Key.availability .consumer).encode = none ∧
      ShowsAvailability { role := .consumer, flags := .all } contested := by
  have habsent : contested.get? (Metric.Key.availability .consumer).encode = none := by
    rw [contested, Metric.Registry.get?_install,
      if_neg (Metric.Key.encode_injective.ne (by decide))]
    rfl
  exact ⟨habsent, availability_kept_current habsent⟩

end Round

end BrokerProbe
