import BrokerProbe.Proofs.Metric.Tally
import BrokerProbe.Proofs.Metric.Window
import BrokerProbe.Proofs.Topology.Distinct
/-!
# Windows filled anew

Of all that a tally asks, the window of a key sees only what concerns its key:
one claim, and then as many records as it was claimed for.  It holds these
records in the end, and nothing that was there before.
-/

namespace BrokerProbe

namespace Metric

namespace Question

def concerning (key : Key) (questions : List Question) : List Question :=
  questions.filter fun question => question.key? = some key.encode

theorem concerning_append (key : Key) (first second : List Question) :
    concerning key (first ++ second) = concerning key first ++ concerning key second :=
  List.filter_append first second

theorem concerning_flatMap {Item : Type} (key : Key) (ask : Item -> List Question)
    (items : List Item) :
    concerning key (items.flatMap ask) = items.flatMap fun item => concerning key (ask item) :=
  List.filter_flatMap

theorem concerning_eq_nil {key : Key} {questions : List Question}
    (h : forall question, question ∈ questions -> question.key? ≠ some key.encode) :
    concerning key questions = [] := by
  rw [concerning, List.filter_eq_nil_iff]
  simpa using h

theorem concerning_claim (key other : Key) (capacity : Nat) :
    concerning key (Tally.claim other capacity) =
      if other = key then Tally.claim other capacity else [] := by
  by_cases h : other = key
  · simp [concerning, Tally.claim, key?, h]
  · simp [concerning, Tally.claim, key?, h, Key.encode_injective.eq_iff]

def fill (key : Key) (values : List Nat) : List Question :=
  values.map fun value => .record (.published key.encode) value

theorem foldl_effect_records (key : Key) (values : List Nat) (window : Window) :
    (fill key values).foldl (fun held question => question.effect held)
      (some (.window window)) = some (.window (window.recordAll values)) := by
  rw [fill, List.foldl_map]
  induction values generalizing window with
  | nil => rfl
  | cons value rest ih => exact ih (window.record value)

theorem foldl_effect_claim {held : Option Instrument}
    (hheld : forall instrument, held = some instrument -> instrument.shape = .histogram)
    (key : Key) (capacity : Nat) :
    exists window : Window, (Tally.claim key capacity).foldl
      (fun held question => question.effect held) held =
        some (.window (window.resize capacity)) := by
  rcases held with _ | window | value
  · exact ⟨.empty capacity, rfl⟩
  · exact ⟨window, rfl⟩
  · cases hheld _ rfl

/-- A window that is claimed for as many records as follow holds them and no others. -/
theorem foldl_effect_fill {held : Option Instrument}
    (hheld : forall instrument, held = some instrument -> instrument.shape = .histogram)
    {capacity : Nat} {values : List Nat} (hcapacity : capacity <= Window.maximum)
    (hpos : 0 < capacity) (hlength : values.length = capacity) (key : Key) :
    exists window, (Tally.claim key capacity ++ fill key values).foldl
        (fun held question => question.effect held) held = some (.window window) ∧
      window.values = values ∧ window.capacity = capacity := by
  have hclamp : Window.clamp capacity = capacity := by
    unfold Window.clamp
    omega
  rcases foldl_effect_claim hheld key capacity with ⟨window, hclaim⟩
  refine ⟨(window.resize capacity).recordAll values, ?_, ?_, ?_⟩
  · rw [List.foldl_append, hclaim, foldl_effect_records]
  · apply Window.values_recordAll_of_length
    rw [Window.capacity_resize, hclamp, hlength]
  · rw [Window.capacity_recordAll, Window.capacity_resize, hclamp]

end Question

namespace Tally

open Question (concerning fill)

variable (role : Role) (topics : Topology) (samples : List (Partition × Nat))

theorem concerning_partitionClaims_eq_nil {key : Key} (h : key.kind ≠ .partitionLatency)
    (partitions : List Partition) :
    concerning key (partitions.flatMap (partitionClaim role)) = [] := by
  rw [Question.concerning_flatMap, List.flatMap_eq_nil_iff]
  intro partition _
  rw [partitionClaim, Question.concerning_claim, if_neg]
  rintro rfl
  exact h rfl

theorem concerning_records (key : Key) (sample : Partition × Nat) :
    concerning key (records role sample) =
      (if Key.latency role = key then fill key [sample.2] else []) ++
        (if Key.topic role sample.1.topic = key then fill key [sample.2] else []) ++
          (if Key.partition role sample.1 = key then fill key [sample.2] else []) := by
  simp only [records, concerning, List.filter_cons, List.filter_nil, Question.key?,
    Option.some.injEq, Key.encode_injective.eq_iff, decide_eq_true_eq]
  split_ifs <;> simp_all [fill]

theorem concerning_samples (key : Key) (takes : Partition -> Prop) [DecidablePred takes]
    (h : forall sample, sample ∈ samples -> concerning key (records role sample) =
      if takes sample.1 then fill key [sample.2] else []) :
    concerning key (samples.flatMap (records role)) =
      fill key ((samples.filter fun sample => takes sample.1).map Prod.snd) := by
  rw [Question.concerning_flatMap, fill, List.map_map, List.map_eq_flatMap,
    <- flatMap_ite_nil]
  exact List.flatMap_congr h

/-!
# The window of everything
-/

theorem concerning_latency_claims :
    concerning (.latency role) (claims role topics) =
      claim (.latency role) topics.partitionCount := by
  have htopics : concerning (.latency role) (topics.flatMap (topicClaims role)) = [] := by
    rw [Question.concerning_flatMap, List.flatMap_eq_nil_iff]
    intro topic _
    rw [topicClaims, Question.concerning_append,
      concerning_partitionClaims_eq_nil role (by simp [Key.latency]),
      Question.concerning_claim, if_neg (by simp [Key.latency, Key.topic]), List.append_nil]
  rw [claims, Question.concerning_append, htopics, Question.concerning_claim, if_pos rfl,
    List.append_nil]

theorem concerning_latency_samples :
    concerning (.latency role) (samples.flatMap (records role)) =
      fill (.latency role) (samples.map Prod.snd) := by
  have h := concerning_samples role samples (.latency role) (fun _ => True)
  simp only [List.filter_true, decide_true] at h
  apply h
  intro sample _
  rw [concerning_records]
  simp [Key.latency, Key.topic, Key.partition]

/-!
# The window of a topic
-/

theorem concerning_topic_claims (name : String) :
    concerning (.topic role name) (claims role topics) =
      (topics.filter fun topic => topic.name = name).flatMap fun topic =>
        claim (.topic role topic.name) topic.partitionCount := by
  rw [claims, Question.concerning_append, Question.concerning_claim,
    if_neg (by simp [Key.latency, Key.topic]), List.nil_append, Question.concerning_flatMap,
    <- flatMap_ite_nil]
  apply List.flatMap_congr
  intro topic _
  rw [topicClaims, Question.concerning_append,
    concerning_partitionClaims_eq_nil role (by simp [Key.topic]), List.append_nil,
    Question.concerning_claim]
  simp [Key.topic]

theorem concerning_topic_samples (name : String) :
    concerning (.topic role name) (samples.flatMap (records role)) =
      fill (.topic role name)
        ((samples.filter fun sample => sample.1.topic = name).map Prod.snd) := by
  apply concerning_samples role samples (.topic role name) fun partition => partition.topic = name
  intro sample _
  rw [concerning_records]
  simp [Key.latency, Key.topic, Key.partition]

/-!
# The window of a partition
-/

variable {partition : Partition}

/-- Numbers below zero could give two partitions one label, and so one key. -/
theorem partition_key_eq_iff {other : Partition} (hpartition : 0 <= partition.number)
    (hother : 0 <= other.number) :
    Key.partition role other = Key.partition role partition <-> other = partition := by
  constructor
  · intro h
    exact Partition.eq_of_label_eq hother hpartition (congrArg Key.scope h)
  · rintro rfl
    rfl

theorem concerning_partition_claims (hpartition : 0 <= partition.number)
    (htopics : forall other, other ∈ topics.partitions -> 0 <= other.number) :
    concerning (.partition role partition) (claims role topics) =
      (topics.partitions.filter fun other => other = partition).flatMap
        (partitionClaim role) := by
  have hclaims : concerning (.partition role partition) (claims role topics) =
      topics.partitions.flatMap fun other =>
        concerning (.partition role partition) (partitionClaim role other) := by
    simp [claims, topicClaims, Topology.partitions, List.flatMap_assoc,
      Question.concerning_append, Question.concerning_flatMap, Question.concerning_claim,
      Key.latency, Key.topic, Key.partition]
  rw [hclaims, <- flatMap_ite_nil]
  apply List.flatMap_congr
  intro other hother
  rw [partitionClaim, Question.concerning_claim,
    if_congr (partition_key_eq_iff role hpartition (htopics other hother)) rfl rfl]

theorem concerning_partition_samples (hpartition : 0 <= partition.number)
    (hsamples : forall sample, sample ∈ samples -> 0 <= sample.1.number) :
    concerning (.partition role partition) (samples.flatMap (records role)) =
      fill (.partition role partition)
        ((samples.filter fun sample => sample.1 = partition).map Prod.snd) := by
  apply concerning_samples role samples (.partition role partition) fun other => other = partition
  intro sample hsample
  rw [concerning_records,
    if_congr (partition_key_eq_iff role hpartition (hsamples sample hsample)) rfl rfl]
  simp [Key.latency, Key.topic, Key.partition]

end Tally

end Metric

end BrokerProbe
