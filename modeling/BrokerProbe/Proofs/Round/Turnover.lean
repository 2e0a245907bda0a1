import BrokerProbe.Proofs.Round.Scene
/-!
# One sweep per window

Windows are shared by all rounds of a role, and each round changes their
capacity to the number of samples that it will record.  Whatever earlier rounds
left in them, they hold the samples of the latest sweep afterwards, and no
others.
-/

namespace BrokerProbe

namespace Round

open Dialogue (Conversation)
open BrokerProbe.Metric (Registry)

/-- Registries that rounds can have built, of whatever roles, topologies and answers. -/
inductive Built : Registry -> Prop where
  | empty : Built .empty
  | sweep {World : Type} (surroundings : Surroundings World) (sweep : Sweep)
      (scene : Scene World) (h : Built scene.space.registry) :
      Built (scene.play surroundings sweep.round).2.space.registry
  | survey {World : Type} (surroundings : Surroundings World) (survey : Survey)
      (scene : Scene World) (h : Built scene.space.registry) :
      Built (scene.play surroundings survey.round).2.space.registry

theorem Built.kinded {registry : Registry} (h : Built registry) : registry.Kinded := by
  induction h with
  | empty => exact Registry.kinded_empty
  | sweep surroundings sweep scene _ ih =>
      exact (Scene.keeps_kinded surroundings sweep.asks_round_fits ih).2
  | survey surroundings survey scene _ ih =>
      exact (Scene.keeps_kinded surroundings survey.asks_round_fits ih).2

theorem Built.of_play {World : Type} {surroundings : Surroundings World} {sweep : Sweep}
    {scene : Scene World} {played : Ending × Scene World}
    (hplayed : played = scene.play surroundings sweep.round)
    (h : Built scene.space.registry) : Built played.2.space.registry := by
  rw [hplayed]
  exact .sweep surroundings sweep scene h

def Holds (registry : Registry) (key : Metric.Key) (values : List Nat) (capacity : Nat) : Prop :=
  exists window, registry.get? key.encode = some (.window window) ∧
    window.values = values ∧ window.capacity = capacity

/-- How the samples of a sweep over some topics replace what its windows held. -/
structure TurnedOver (role : Role) (topics : Topology) (samples : List (Partition × Nat))
    (before after : Registry) : Prop where
  probed : samples.map Prod.fst = topics.partitions
  overall : Holds after (.latency role) (samples.map Prod.snd) topics.partitionCount
  topic : forall topic, topic ∈ topics ->
    Holds after (.topic role topic.name)
      ((samples.filter fun sample => sample.1.topic = topic.name).map Prod.snd)
      topic.partitionCount
  partition : forall partition, partition ∈ topics.partitions -> exists value,
    (samples.filter fun sample => sample.1 = partition) = [(partition, value)] ∧
      Holds after (.partition role partition) [value] 1
  /-- Topics that are not swept keep their windows, and so do their partitions. -/
  other : forall name, name ∉ topics.map Topic.name ->
    after.get? (Metric.Key.topic role name).encode =
        before.get? (Metric.Key.topic role name).encode ∧
      forall number : Int, 0 <= number ->
        after.get? (Metric.Key.partition role { topic := name, number }).encode =
          before.get? (Metric.Key.partition role { topic := name, number }).encode

/-!
# What concerns a latency
-/

variable {sweep : Sweep} {shard : Shard} {exchanges : List Exchange} {ending : Ending}
variable {topology : Topology} {roster : Roster}

namespace Sweep

theorem concerning_eq_nil {aside : List Exchange} {key : Metric.Key}
    (hkey : key.kind ≠ .availability)
    (h : forall exchange, exchange ∈ aside -> Aside sweep.role exchange.question) :
    Metric.Question.concerning key (metricQuestions aside) = [] := by
  apply Metric.Question.concerning_eq_nil
  intro question hquestion heq
  rw [metricQuestions, List.mem_filterMap] at hquestion
  rcases hquestion with ⟨⟨asked, answer⟩, hexchange, hasked⟩
  have haside := h _ hexchange
  cases asked with
  | metric asked =>
      cases hasked
      have hencode := haside _ heq
      exact hkey (congrArg Metric.Key.kind (Metric.Key.encode_injective hencode))
  | _ => cases hasked

theorem Course.concerning (h : Course sweep shard exchanges ending)
    (hflags : sweep.publisher.flags = .all)
    (hgranted : forall exchange, exchange ∈ exchanges -> Exchange.Granted exchange)
    {key : Metric.Key} (hkey : key.kind ≠ .availability) :
    Metric.Question.concerning key (metricQuestions exchanges) =
      Metric.Question.concerning key (Metric.Tally.claims sweep.role shard.topics) ++
        Metric.Question.concerning key
          ((samples exchanges).flatMap (Metric.Tally.records sweep.role)) := by
  rcases h with ⟨opens, starts, probes, finishes⟩
  have hcloses := finishes.asks asks_finish_aside
  simp only [List.forall_mem_append, List.forall_mem_map] at hgranted
  rcases Metric.Tally.start_inv hflags starts hgranted.2.1 with ⟨rfl, hclaims⟩
  have hrecords := probeAll_published_inv probes fun _ =>
    Topology.mem_reverse_of_mem_partitions
  simp only [metricQuestions_append, samples_append, Metric.Question.concerning_append,
    concerning_eq_nil hkey opens, concerning_eq_nil hkey hcloses, samples_eq_nil opens,
    samples_eq_nil hcloses, metricQuestions_ofMetric, samples_ofMetric, hclaims, hrecords,
    List.nil_append, List.append_nil]
  rfl

end Sweep

/-!
# What the windows hold
-/

section Windows

open BrokerProbe.Metric (Key Tally)
open BrokerProbe.Metric.Question (concerning fill)

variable {before after : Registry} {role : Role} {topics : Topology}
variable {samples : List (Partition × Nat)}

structure Swept (role : Role) (topics : Topology) (samples : List (Partition × Nat))
    (before after : Registry) : Prop where
  kinded : before.Kinded
  probed : samples.map Prod.fst = topics.partitions
  get?_eq : forall key : Key, key.kind ≠ .availability ->
    after.get? key.encode =
      (concerning key (Tally.claims role topics) ++
        concerning key (samples.flatMap (Tally.records role))).foldl
          (fun held question => question.effect held) (before.get? key.encode)

namespace Swept

theorem holds (h : Swept role topics samples before after) {key : Key} {capacity : Nat}
    {values : List Nat} (hshape : key.kind.shape = .histogram)
    (hclaims : concerning key (Tally.claims role topics) = Tally.claim key capacity)
    (hrecords : concerning key (samples.flatMap (Tally.records role)) = fill key values)
    (hlength : values.length = capacity) (hpos : 0 < capacity)
    (hle : capacity <= Metric.Window.maximum) : Holds after key values capacity := by
  have hkind : key.kind ≠ .availability := by
    intro hkind
    rw [hkind] at hshape
    cases hshape
  have hheld : forall instrument, before.get? key.encode = some instrument ->
      instrument.shape = .histogram := by
    intro instrument hinstrument
    rw [h.kinded key instrument hinstrument, hshape]
  rcases Metric.Question.foldl_effect_fill hheld hle hpos hlength key with
    ⟨window, hwindow, hvalues, hcapacity⟩
  refine ⟨window, ?_, hvalues, hcapacity⟩
  rw [h.get?_eq key hkind, hclaims, hrecords, hwindow]

theorem map_fst_filter (h : Swept role topics samples before after)
    (takes : Partition -> Prop) [DecidablePred takes] :
    (samples.filter fun sample => takes sample.1).map Prod.fst =
      topics.partitions.filter fun partition => takes partition := by
  rw [<- h.probed, List.filter_map]
  rfl

theorem number_nonneg (h : Swept role topics samples before after) (hdistinct : topics.Distinct)
    {sample : Partition × Nat} (hsample : sample ∈ samples) : 0 <= sample.1.number := by
  apply hdistinct.number_nonneg
  rw [<- h.probed]
  exact List.mem_map_of_mem hsample

theorem overall (h : Swept role topics samples before after) (htopics : topics ≠ [])
    (hdistinct : topics.Distinct)
    (hmaximum : topics.partitionCount <= Metric.Window.maximum) :
    Holds after (.latency role) (samples.map Prod.snd) topics.partitionCount := by
  have hlength : (samples.map Prod.snd).length = topics.partitionCount := by
    rw [List.length_map, <- Topology.length_partitions, <- h.probed, List.length_map]
  have hpos : 0 < topics.partitionCount := by
    rcases List.exists_mem_of_ne_nil _ htopics with ⟨topic, htopic⟩
    exact Nat.lt_of_lt_of_le (hdistinct.partitionCount_pos htopic)
      (Topology.partitionCount_le htopic)
  exact h.holds rfl (Tally.concerning_latency_claims role topics)
    (Tally.concerning_latency_samples role samples) hlength hpos hmaximum

theorem topic (h : Swept role topics samples before after) (hdistinct : topics.Distinct)
    (hmaximum : topics.partitionCount <= Metric.Window.maximum) {topic : Topic}
    (htopic : topic ∈ topics) :
    Holds after (.topic role topic.name)
      ((samples.filter fun sample => sample.1.topic = topic.name).map Prod.snd)
      topic.partitionCount := by
  have hclaims := Tally.concerning_topic_claims role topics topic.name
  rw [hdistinct.filter_name htopic, List.flatMap_singleton] at hclaims
  have hlength := congrArg List.length
    (h.map_fst_filter fun partition => partition.topic = topic.name)
  rw [hdistinct.filter_topic htopic, Topic.length_partitions, List.length_map] at hlength
  refine h.holds rfl hclaims (Tally.concerning_topic_samples role samples topic.name) ?_
    (hdistinct.partitionCount_pos htopic)
    (Nat.le_trans (Topology.partitionCount_le htopic) hmaximum)
  rw [List.length_map, hlength]

theorem partition (h : Swept role topics samples before after) (hdistinct : topics.Distinct)
    {partition : Partition} (hpartition : partition ∈ topics.partitions) :
    exists value, (samples.filter fun sample => sample.1 = partition) = [(partition, value)] ∧
      Holds after (.partition role partition) [value] 1 := by
  have hnumber := hdistinct.number_nonneg hpartition
  have hown := h.map_fst_filter fun other => other = partition
  rw [hdistinct.filter_partition hpartition] at hown
  rcases List.map_eq_singleton_iff.mp hown with ⟨⟨_, value⟩, hsample, rfl⟩
  have hclaims := Tally.concerning_partition_claims role topics hnumber
    fun _ => hdistinct.number_nonneg
  rw [hdistinct.filter_partition hpartition, List.flatMap_singleton] at hclaims
  have hrecords := Tally.concerning_partition_samples role samples hnumber
    fun _ => h.number_nonneg hdistinct
  rw [hsample] at hrecords
  exact ⟨value, hsample, h.holds rfl hclaims hrecords rfl Nat.one_pos (by decide)⟩

theorem topic_ne_of_not_mem (h : Swept role topics samples before after) {name : String}
    (hname : name ∉ topics.map Topic.name) {sample : Partition × Nat}
    (hsample : sample ∈ samples) : sample.1.topic ≠ name := by
  rintro rfl
  have hpartition : sample.1 ∈ topics.partitions := by
    rw [<- h.probed]
    exact List.mem_map_of_mem hsample
  rcases Topology.mem_partitions.mp hpartition with ⟨topic, htopic, hsame, _⟩
  exact hname (hsame ▸ List.mem_map_of_mem htopic)

theorem other_topic (h : Swept role topics samples before after) {name : String}
    (hname : name ∉ topics.map Topic.name) :
    after.get? (Key.topic role name).encode = before.get? (Key.topic role name).encode := by
  have hclaims : (topics.filter fun topic => topic.name = name) = [] := by
    rw [List.filter_eq_nil_iff]
    intro topic htopic
    rw [decide_eq_true_eq]
    rintro rfl
    exact hname (List.mem_map_of_mem htopic)
  have hrecords : (samples.filter fun sample => sample.1.topic = name) = [] := by
    rw [List.filter_eq_nil_iff]
    intro sample hsample
    rw [decide_eq_true_eq]
    exact h.topic_ne_of_not_mem hname hsample
  rw [h.get?_eq _ (by simp [Key.topic]), Tally.concerning_topic_claims,
    Tally.concerning_topic_samples, hclaims, hrecords]
  rfl

theorem other_partition (h : Swept role topics samples before after)
    (hdistinct : topics.Distinct) {partition : Partition} (hnumber : 0 <= partition.number)
    (hname : partition.topic ∉ topics.map Topic.name) :
    after.get? (Key.partition role partition).encode =
      before.get? (Key.partition role partition).encode := by
  have hrecords : (samples.filter fun sample => sample.1 = partition) = [] := by
    rw [List.filter_eq_nil_iff]
    intro sample hsample
    rw [decide_eq_true_eq]
    intro heq
    exact h.topic_ne_of_not_mem hname hsample (congrArg Partition.topic heq)
  have hclaims := h.map_fst_filter fun other => other = partition
  rw [hrecords, List.map_nil] at hclaims
  rw [h.get?_eq _ (by simp [Key.partition]),
    Tally.concerning_partition_claims role topics hnumber fun _ => hdistinct.number_nonneg,
    Tally.concerning_partition_samples role samples hnumber fun _ => h.number_nonneg hdistinct,
    <- hclaims, hrecords]
  rfl

theorem turnedOver (h : Swept role topics samples before after) (htopics : topics ≠ [])
    (hdistinct : topics.Distinct)
    (hmaximum : topics.partitionCount <= Metric.Window.maximum) :
    TurnedOver role topics samples before after where
  probed := h.probed
  overall := h.overall htopics hdistinct hmaximum
  topic := fun _ => h.topic hdistinct hmaximum
  partition := fun _ => h.partition hdistinct
  other := fun _ hname =>
    ⟨h.other_topic hname, fun _ hnumber => h.other_partition hdistinct hnumber hname⟩

end Swept

end Windows

/-- After a sweep its windows hold its own samples, whatever rounds came before. -/
theorem windows_turn_over {World : Type} {surroundings : Surroundings World}
    {scene : Scene World} (hbuilt : Built scene.space.registry)
    (hflags : sweep.publisher.flags = .all)
    (hsees : forall exchange,
      exchange ∈ sweep.round.transcript (Scene.reply surroundings) scene ->
        Exchange.Sees topology roster exchange)
    (hplan : Shard.plan topology roster sweep.address = .ok shard)
    (htopics : shard.topics ≠ []) (hdistinct : shard.topics.Distinct)
    (hmaximum : shard.topics.partitionCount <= Metric.Window.maximum) :
    TurnedOver sweep.role shard.topics
      (samples (sweep.round.transcript (Scene.reply surroundings) scene))
      scene.space.registry (scene.play surroundings sweep.round).2.space.registry := by
  have hgranted := (Scene.keeps_kinded surroundings sweep.asks_round_fits hbuilt.kinded).1
  have hcourse := Sweep.round_inv (Dialogue.conversation_run _ _ scene) hsees hplan
  have hswept : Swept sweep.role shard.topics
      (samples (sweep.round.transcript (Scene.reply surroundings) scene))
      scene.space.registry (scene.play surroundings sweep.round).2.space.registry := by
    refine ⟨hbuilt.kinded, ?_, ?_⟩
    · rw [map_fst_samples hsees]
      exact (hcourse.completed hsees).1
    · intro key hkey
      rw [Scene.get?_play, hcourse.concerning hflags hgranted hkey]
  exact hswept.turnedOver htopics hdistinct hmaximum

def solo : Roster :=
  { addresses := ["probe-1:80"] }

def soloSweep : Sweep :=
  { address := "probe-1:80", directory := .fixed solo, publisher := default }

def soloScene (registry : Registry) (topology : Topology) : Scene Simulated.Cluster where
  space := .ofRegistry registry
  stopping := false
  world := {
    Simulated.Cluster.ofTopology topology with
    roster := solo
    faults := {
      failing := [{ topic := "orders", number := 1 }]
      failAll := false
      latency := 7 } }

theorem registry_soloScene (registry : Registry) (topology : Topology) :
    (soloScene registry topology).space.registry = registry := rfl

def earlierPlay : Ending × Scene Simulated.Cluster :=
  Scene.play Simulated.Cluster.surroundings soloSweep.round (soloScene .empty
    [{ name := "orders", numbers := [0, 1, 2] }, { name := "audit", numbers := [0] },
      { name := "orders", numbers := [1] }])

def laterTopics : Topology :=
  [{ name := "orders", numbers := [1] }, { name := "bills", numbers := [3, 0] }]

def laterScene : Scene Simulated.Cluster :=
  soloScene earlierPlay.2.space.registry laterTopics

theorem windows_turn_over_laterScene :
    Built laterScene.space.registry ∧ laterTopics.Distinct ∧
      TurnedOver soloSweep.role laterTopics
        (samples (soloSweep.round.transcript
          (Scene.reply Simulated.Cluster.surroundings) laterScene))
        laterScene.space.registry
        (laterScene.play Simulated.Cluster.surroundings soloSweep.round).2.space.registry := by
  have hbuilt : Built laterScene.space.registry := by
    rw [laterScene, registry_soloScene]
    exact .of_play rfl .empty
  have hdistinct : laterTopics.Distinct := ⟨by decide, by decide, by decide, by decide⟩
  have hsees : forall exchange,
      exchange ∈ soloSweep.round.transcript
        (Scene.reply Simulated.Cluster.surroundings) laterScene ->
          Exchange.Sees laterTopics solo exchange :=
    (steady_cluster laterTopics solo).sees ⟨rfl, rfl, rfl, rfl⟩ (Or.inr rfl)
  have hplan : Shard.plan laterTopics solo soloSweep.address =
      .ok { position := 0, shardCount := 1, totalTopics := 2, topics := laterTopics } := rfl
  exact ⟨hbuilt, hdistinct,
    windows_turn_over hbuilt rfl hsees hplan (by decide) hdistinct (by decide)⟩

end Round

end BrokerProbe
