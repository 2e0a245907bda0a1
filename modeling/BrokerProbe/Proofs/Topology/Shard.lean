import BrokerProbe.Topology.Shard
import Mathlib.Algebra.GroupWithZero.Nat
import Mathlib.Data.List.Flatten
import Mathlib.Data.List.Nodup
import Mathlib.Data.List.Perm.Basic
/-!
# Shards of one topology

The instances of a roster divide a topology among themselves: every entry falls
to exactly one of them, whatever its name.
-/

namespace BrokerProbe

theorem flatMap_filter_perm {Item : Type} (bin : Item -> Nat) (count : Nat) (items : List Item) :
    ((List.range count).flatMap fun number => items.filter fun item => bin item == number).Perm
      (items.filter fun item => bin item < count) := by
  induction count with
  | zero => simp
  | succ count ih =>
      have hlast : (items.filter fun item => bin item < count + 1).filter
          (fun item => !decide (bin item < count)) =
            items.filter fun item => bin item == count := by
        rw [List.filter_filter]
        apply List.filter_congr
        intro item _
        rw [Bool.eq_iff_iff]
        simp
        omega
      have hbefore : (items.filter fun item => bin item < count + 1).filter
          (fun item => decide (bin item < count)) =
            items.filter fun item => bin item < count := by
        rw [List.filter_filter]
        apply List.filter_congr
        intro item _
        rw [Bool.eq_iff_iff]
        simp
        omega
      have hsplit := List.filter_append_perm (fun item => decide (bin item < count))
        (items.filter fun item => bin item < count + 1)
      rw [hbefore, hlast] at hsplit
      rw [List.range_succ, List.flatMap_append, List.flatMap_singleton]
      exact (ih.append_right _).trans hsplit

/-- Whether a roster has a place for an address: it is listed, or nobody is. -/
def Roster.Enrols (roster : Roster) (address : String) : Prop :=
  roster.addresses = [] ∨ address ∈ roster.addresses

def Roster.FirstAt (roster : Roster) (address : String) (position : Nat) : Prop :=
  roster.addresses[position]? = some address ∧
    forall earlier, earlier < position -> roster.addresses[earlier]? ≠ some address

namespace Roster

variable {roster : Roster} {address : String} {position : Nat}

theorem indexOf?_eq_some_iff :
    roster.indexOf? address = some position <-> roster.FirstAt address position := by
  rw [indexOf?, List.findIdx?_eq_some_iff_getElem, FirstAt, List.getElem?_eq_some_iff]
  constructor
  · rintro ⟨hlt, hat, hbefore⟩
    refine ⟨⟨hlt, eq_of_beq hat⟩, fun earlier hearlier hsame => ?_⟩
    rcases List.getElem?_eq_some_iff.mp hsame with ⟨_, hsame⟩
    exact hbefore earlier hearlier (beq_iff_eq.mpr hsame)
  · rintro ⟨⟨hlt, hat⟩, hbefore⟩
    refine ⟨hlt, beq_iff_eq.mpr hat, fun earlier hearlier hsame => hbefore earlier hearlier ?_⟩
    rw [List.getElem?_eq_getElem (Nat.lt_trans hearlier hlt), eq_of_beq hsame]

theorem FirstAt.lt (h : roster.FirstAt address position) : position < roster.size :=
  (List.getElem?_eq_some_iff.mp h.1).1

theorem FirstAt.mem (h : roster.FirstAt address position) : address ∈ roster.addresses :=
  List.mem_of_getElem? h.1

theorem firstAt_of_nodup (hnodup : roster.addresses.Nodup)
    (h : position < roster.addresses.length) :
    roster.FirstAt roster.addresses[position] position := by
  refine ⟨List.getElem?_eq_getElem h, fun earlier hearlier hsame => ?_⟩
  rcases List.getElem?_eq_some_iff.mp hsame with ⟨_, hsame⟩
  exact Nat.ne_of_lt hearlier ((List.Nodup.getElem_inj_iff hnodup).mp hsame)

end Roster

namespace Shard

theorem assigned_eq {peers : Nat} (hpeers : peers ≠ 0) (topology : Topology) (position : Nat) :
    assigned topology peers position =
      (topology.zipIdx.filter fun entry => entry.2 % peers == position).map Prod.fst := by
  simp [assigned, shardOf, hpeers]

theorem flatMap_assigned_perm {peers : Nat} (hpeers : peers ≠ 0) (topology : Topology) :
    ((List.range peers).flatMap (assigned topology peers)).Perm topology := by
  have hentries := flatMap_filter_perm (fun entry : Topic × Nat => entry.2 % peers) peers
    topology.zipIdx
  have hall : (topology.zipIdx.filter fun entry => entry.2 % peers < peers) =
      topology.zipIdx := by
    rw [List.filter_eq_self]
    intro entry _
    exact decide_eq_true (Nat.mod_lt _ (Nat.pos_of_ne_zero hpeers))
  rw [hall] at hentries
  have hperm := hentries.map Prod.fst
  rw [List.map_flatMap, List.zipIdx_map_fst] at hperm
  rw [List.flatMap_congr fun position _ => assigned_eq hpeers topology position]
  exact hperm

theorem flatMap_assigned_partitions_perm {peers : Nat} (hpeers : peers ≠ 0)
    (topology : Topology) :
    ((List.range peers).flatMap fun position =>
      (assigned topology peers position).partitions).Perm topology.partitions := by
  have hperm := (flatMap_assigned_perm hpeers topology).flatMap_right Topic.partitions
  rw [List.flatMap_assoc] at hperm
  exact hperm

theorem sum_topicCount {peers : Nat} (hpeers : peers ≠ 0) (topology : Topology) :
    ((List.range peers).map fun position =>
      (assigned topology peers position).topicCount).sum = topology.topicCount := by
  have hlength := (flatMap_assigned_perm hpeers topology).length_eq
  rw [List.length_flatMap] at hlength
  exact hlength

theorem sum_partitionCount {peers : Nat} (hpeers : peers ≠ 0) (topology : Topology) :
    ((List.range peers).map fun position =>
      (assigned topology peers position).partitionCount).sum = topology.partitionCount := by
  have hlength := (flatMap_assigned_partitions_perm hpeers topology).length_eq
  rw [List.length_flatMap] at hlength
  simpa only [Topology.length_partitions] using hlength

theorem isSome_indexOf? (roster : Roster) (address : String) :
    (roster.indexOf? address).isSome <-> address ∈ roster.addresses := by
  simp [Roster.indexOf?]

theorem locate_eq_error_iff {roster : Roster} {address : String} {error : SetupError} :
    locate roster address = .error error <->
      error = .notInRoster address roster.size ∧ roster.addresses ≠ [] ∧
        address ∉ roster.addresses := by
  rw [<- isSome_indexOf?, ne_eq, <- List.isEmpty_iff]
  unfold locate
  rw [Roster.isEmpty]
  split
  · simp [*]
  · cases roster.indexOf? address <;> simp [*, eq_comm]

theorem plan_eq_error_iff {topology : Topology} {roster : Roster} {address : String}
    {error : SetupError} :
    plan topology roster address = .error error <->
      error = .notInRoster address roster.size ∧ roster.addresses ≠ [] ∧
        address ∉ roster.addresses := by
  rw [<- locate_eq_error_iff, plan]
  cases locate roster address with
  | ok position => exact ⟨nofun, nofun⟩
  | error cause =>
      constructor
      · exact fun h => congrArg Except.error (Except.error.inj h)
      · exact fun h => congrArg Except.error (Except.error.inj h)

theorem exists_plan {roster : Roster} {address : String} (h : roster.Enrols address)
    (topology : Topology) : exists shard, plan topology roster address = .ok shard := by
  cases hplan : plan topology roster address with
  | ok shard => exact ⟨shard, rfl⟩
  | error error =>
      rcases plan_eq_error_iff.mp hplan with ⟨_, hlisted, habsent⟩
      rcases h with hempty | hmem
      · exact absurd hempty hlisted
      · exact absurd hmem habsent

theorem plan_of_firstAt {roster : Roster} {address : String} {position : Nat}
    (h : roster.FirstAt address position) (topology : Topology) :
    plan topology roster address =
      .ok {
        position
        shardCount := max roster.size 1
        totalTopics := topology.topicCount
        topics := assigned topology roster.size position } := by
  have hempty : roster.isEmpty = false := by
    rw [Roster.isEmpty, List.isEmpty_eq_false_iff]
    exact List.ne_nil_of_mem h.mem
  have hlocate : locate roster address = .ok position := by
    simp [locate, hempty, Roster.indexOf?_eq_some_iff.mpr h]
  rw [plan, hlocate]
  rfl

theorem plan_eq_ok {roster : Roster} (hnodup : roster.addresses.Nodup) (topology : Topology)
    {position : Nat} (h : position < roster.addresses.length) :
    plan topology roster roster.addresses[position] =
      .ok {
        position
        shardCount := max roster.size 1
        totalTopics := topology.topicCount
        topics := assigned topology roster.size position } :=
  plan_of_firstAt (Roster.firstAt_of_nodup hnodup h) topology

end Shard

end BrokerProbe
