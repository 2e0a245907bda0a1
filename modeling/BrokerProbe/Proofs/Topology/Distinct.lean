import BrokerProbe.Topology.Basic
import Mathlib.Data.List.Nodup
/-!
# Topologies without repetitions

Where no name is listed twice, and no number twice under a name, a topic is told
by its name, and a listed partition stands at one place.
-/

namespace BrokerProbe

theorem flatMap_ite_nil {α β : Type} (p : α -> Prop) [DecidablePred p] (give : α -> List β)
    (items : List α) :
    (items.flatMap fun item => if p item then give item else []) =
      (items.filter fun item => p item).flatMap give := by
  induction items with
  | nil => rfl
  | cons item rest ih =>
      by_cases h : p item
      · simp [h, ih]
      · simp [h, ih]

theorem filter_eq_singleton {Item Image : Type} [DecidableEq Image] {image : Item -> Image}
    {items : List Item} (hnodup : (items.map image).Nodup) {item : Item} (h : item ∈ items) :
    (items.filter fun other => image other = image item) = [item] := by
  induction items with
  | nil => cases h
  | cons first rest ih =>
      rw [List.map_cons, List.nodup_cons] at hnodup
      rcases List.mem_cons.mp h with rfl | hrest
      · rw [List.filter_cons_of_pos (by simp), List.filter_eq_nil_iff.mpr]
        intro other hother
        rw [decide_eq_true_eq]
        intro heq
        exact hnodup.1 (heq ▸ List.mem_map_of_mem hother)
      · rw [List.filter_cons_of_neg, ih hnodup.2 hrest]
        rw [decide_eq_true_eq]
        intro heq
        exact hnodup.1 (heq ▸ List.mem_map_of_mem hrest)

namespace Topology

structure Distinct (topology : Topology) : Prop where
  names : (topology.map Topic.name).Nodup
  numbers : forall topic, topic ∈ topology -> topic.numbers.Nodup
  numbers_ne_nil : forall topic, topic ∈ topology -> topic.numbers ≠ []
  numbers_nonneg : forall topic, topic ∈ topology ->
    forall number, number ∈ topic.numbers -> 0 <= number

theorem mem_partitions {topology : Topology} {partition : Partition} :
    partition ∈ topology.partitions <->
      exists topic, topic ∈ topology ∧ topic.name = partition.topic ∧
        partition.number ∈ topic.numbers := by
  rcases partition with ⟨name, number⟩
  simp only [partitions, Topic.partitions, List.mem_flatMap, List.mem_map, Partition.mk.injEq]
  grind

theorem mem_reverse_of_mem_partitions {topology : Topology} {partition : Partition}
    (h : partition ∈ topology.partitions) :
    partition.topic ∈ (topology.map Topic.name).reverse ∧
      partition ∈ topology.partitions.reverse := by
  rcases mem_partitions.mp h with ⟨topic, htopic, hname, _⟩
  rw [List.mem_reverse, List.mem_reverse, <- hname]
  exact ⟨List.mem_map_of_mem htopic, h⟩

theorem partitionCount_le {topology : Topology} {topic : Topic} (h : topic ∈ topology) :
    topic.partitionCount <= topology.partitionCount := by
  induction topology with
  | nil => cases h
  | cons first rest ih =>
      rw [partitionCount]
      rcases List.mem_cons.mp h with rfl | hrest
      · exact Nat.le_add_right _ _
      · exact Nat.le_add_left_of_le (ih hrest)

namespace Distinct

variable {topology : Topology} {topic : Topic} {partition : Partition}

theorem partitionCount_pos (h : topology.Distinct) (htopic : topic ∈ topology) :
    0 < topic.partitionCount :=
  List.length_pos_iff.mpr (h.numbers_ne_nil topic htopic)

theorem number_nonneg (h : topology.Distinct) (hpartition : partition ∈ topology.partitions) :
    0 <= partition.number := by
  rcases mem_partitions.mp hpartition with ⟨topic, htopic, _, hnumber⟩
  exact h.numbers_nonneg topic htopic _ hnumber

theorem filter_name (h : topology.Distinct) (htopic : topic ∈ topology) :
    (topology.filter fun other => other.name = topic.name) = [topic] :=
  filter_eq_singleton h.names htopic

theorem filter_topic (h : topology.Distinct) (htopic : topic ∈ topology) :
    (topology.partitions.filter fun partition => partition.topic = topic.name) =
      topic.partitions := by
  have hown : forall other : Topic,
      (other.partitions.filter fun partition => partition.topic = topic.name) =
        if other.name = topic.name then other.partitions else [] := by
    intro other
    split
    · next heq => simp [Topic.partitions, heq]
    · next hne => simp [Topic.partitions, hne]
  rw [partitions, List.filter_flatMap, List.flatMap_congr fun other _ => hown other,
    flatMap_ite_nil, h.filter_name htopic, List.flatMap_singleton]

theorem nodup_partitions (h : topology.Distinct) : topology.partitions.Nodup := by
  rw [partitions, List.nodup_flatMap]
  constructor
  · intro topic htopic
    refine (h.numbers topic htopic).map ?_
    intro first second heq
    exact congrArg Partition.number heq
  · refine (List.pairwise_map.mp h.names).imp ?_
    intro first second hne partition hfirst hsecond
    rcases List.mem_map.mp hfirst with ⟨_, _, rfl⟩
    rcases List.mem_map.mp hsecond with ⟨_, _, heq⟩
    exact hne (congrArg Partition.topic heq).symm

theorem filter_partition (h : topology.Distinct) (hpartition : partition ∈ topology.partitions) :
    (topology.partitions.filter fun other => other = partition) = [partition] :=
  filter_eq_singleton (by rw [List.map_id']; exact h.nodup_partitions) hpartition

end Distinct

end Topology

end BrokerProbe
