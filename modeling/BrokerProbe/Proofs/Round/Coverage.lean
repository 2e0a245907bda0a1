import BrokerProbe.Proofs.Round.Scene
import BrokerProbe.Proofs.Topology.Shard
/-!
# Coverage by a fleet

When every instance of a roster sweeps the same topology, each listed partition
is read once, by one of them.  This holds by position, so names and numbers may
repeat, and whatever the reads bring.
-/

namespace BrokerProbe

namespace Round

structure Member (World : Type) where
  sweep : Sweep
  surroundings : Surroundings World
  scene : Scene World

namespace Member

variable {World : Type}

def transcript (member : Member World) : List Exchange :=
  member.sweep.round.transcript (Scene.reply member.surroundings) member.scene

def ending (member : Member World) : Ending :=
  (Scene.play member.surroundings member.sweep.round member.scene).1

def reads (member : Member World) : List Partition :=
  Round.reads member.transcript

/-- Whether a member finds a topology and a roster, and finishes each of its reads. -/
def Sees (member : Member World) (topology : Topology) (roster : Roster) : Prop :=
  forall exchange, exchange ∈ member.transcript -> exchange.Sees topology roster

theorem course {member : Member World} {topology : Topology} {roster : Roster}
    (hsees : member.Sees topology roster) {shard : Shard}
    (hplan : Shard.plan topology roster member.sweep.address = .ok shard) :
    member.reads = shard.topics.partitions ∧
      exists summary : Metric.Summary, summary.tries = shard.topics.partitionCount ∧
        member.ending = .completed (member.sweep.outcome shard summary) :=
  (Sweep.round_inv (Dialogue.conversation_run _ _ _) hsees hplan).completed hsees

end Member

structure Covers {World : Type} (topology : Topology) (members : List (Member World)) :
    Prop where
  /-- All rounds complete, and their figures add up to those of the topology. -/
  outcomes : exists outcomes : List Outcome,
    members.map Member.ending = outcomes.map Ending.completed ∧
    (outcomes.map Outcome.tries).sum = topology.partitionCount ∧
    (outcomes.map Outcome.assignedTopics).sum = topology.topicCount
  /-- Each listed partition is read once. -/
  reads_perm : (members.flatMap Member.reads).Perm topology.partitions
  /-- A member reads the entries whose positions leave its own position as remainder. -/
  reads_getElem : forall position (h : position < members.length),
    members[position].reads =
      (topology.zipIdx.filter fun entry => entry.2 % members.length == position).flatMap
        fun entry => entry.1.partitions

theorem map_eq_map_range {Item Image : Type} {items : List Item} {image : Item -> Image}
    {imageAt : Nat -> Image}
    (h : forall position (hposition : position < items.length),
      image items[position] = imageAt position) :
    items.map image = (List.range items.length).map imageAt := by
  apply List.ext_getElem
  · simp
  · intro position hposition _
    rw [List.length_map] at hposition
    simp [h position hposition]

theorem exists_getElem {Item : Type} {fits : Nat -> Item -> Prop} {count : Nat}
    (h : forall position, position < count -> exists item, fits position item) :
    exists items : List Item, items.length = count ∧
      forall position (hposition : position < items.length),
        fits position items[position] := by
  choose itemAt hitem using h
  refine ⟨List.ofFn fun position : Fin count => itemAt position position.isLt, by simp, ?_⟩
  intro position hposition
  rw [List.getElem_ofFn]
  exact hitem position _

variable {World : Type} {topology : Topology} {roster : Roster} {members : List (Member World)}

theorem course_getElem (hnodup : roster.addresses.Nodup)
    (haddresses : (members.map fun member => member.sweep.address) = roster.addresses)
    (hsees : forall member, member ∈ members -> member.Sees topology roster)
    {position : Nat} (h : position < members.length) :
    members[position].reads =
        (Shard.assigned topology members.length position).partitions ∧
      exists outcome : Outcome, members[position].ending = .completed outcome ∧
        outcome.tries = (Shard.assigned topology members.length position).partitionCount ∧
        outcome.assignedTopics =
          (Shard.assigned topology members.length position).topicCount := by
  have hsize : roster.addresses.length = members.length := by
    rw [<- haddresses, List.length_map]
  have haddress : members[position].sweep.address =
      roster.addresses[position] := by
    simp [<- haddresses]
  have hplan := Shard.plan_eq_ok hnodup topology (hsize ▸ h)
  rw [<- haddress, Roster.size, hsize] at hplan
  rcases Member.course (hsees _ (List.getElem_mem h)) hplan with
    ⟨hreads, summary, htries, hending⟩
  exact ⟨hreads, _, hending, htries, rfl⟩

/-- The instances of a roster cover the topology that they all see. -/
theorem fleet_covers (hroster : roster.isEmpty = false)
    (hdistinct : roster.firstDuplicate? = none)
    (haddresses : (members.map fun member => member.sweep.address) = roster.addresses)
    (hsees : forall member, member ∈ members -> member.Sees topology roster) :
    Covers topology members := by
  have hnodup : roster.addresses.Nodup := (firstRepeat?_eq_none_iff _).mp hdistinct
  have hpeers : members.length ≠ 0 := by
    intro hzero
    rw [List.length_eq_zero_iff.mp hzero, List.map_nil] at haddresses
    simp [Roster.isEmpty, <- haddresses] at hroster
  have hcourse := fun position (h : position < members.length) =>
    course_getElem hnodup haddresses hsees h
  -- The outcomes stand in the order of the members, so their figures are those of the shards.
  rcases exists_getElem fun position (h : position < members.length) =>
      (hcourse position h).2.imp fun _ houtcome => Exists.intro h houtcome with
    ⟨outcomes, hlength, houtcome⟩
  have hreads : members.flatMap Member.reads =
      (List.range members.length).flatMap fun position =>
        (Shard.assigned topology members.length position).partitions := by
    rw [List.flatMap_def, List.flatMap_def,
      map_eq_map_range fun position h => (hcourse position h).1]
  refine ⟨⟨outcomes, ?_, ?_, ?_⟩, ?_, ?_⟩
  · apply List.ext_getElem
    · simp [hlength]
    · intro position _ hposition
      rw [List.length_map] at hposition
      rcases houtcome position hposition with ⟨_, hending, _, _⟩
      simp [hending]
  · have htries := map_eq_map_range fun position h => (houtcome position h).2.2.1
    rw [htries, hlength]
    exact Shard.sum_partitionCount hpeers topology
  · have htopics := map_eq_map_range fun position h => (houtcome position h).2.2.2
    rw [htopics, hlength]
    exact Shard.sum_topicCount hpeers topology
  · rw [hreads]
    exact Shard.flatMap_assigned_partitions_perm hpeers topology
  · intro position h
    rw [(hcourse position h).1, Shard.assigned_eq hpeers, Topology.partitions,
      List.flatMap_map]

def repetitive : Topology :=
  [{ name := "orders", numbers := [0, 1] }, { name := "audit", numbers := [] },
    { name := "orders", numbers := [1] }, { name := "bills", numbers := [3] }]

def pair : Roster :=
  { addresses := ["probe-1:80", "probe-2:80"] }

def failingMember (address : String) : Member Simulated.Cluster where
  sweep := { address, directory := .service, publisher := default }
  surroundings := Simulated.Cluster.surroundings
  scene := {
    space := default
    stopping := false
    world := {
      Simulated.Cluster.ofTopology repetitive with
      roster := pair
      faults := {
        failing := [{ topic := "orders", number := 1 }]
        failAll := false
        latency := 7 } } }

theorem sees_failingMember (address : String) : (failingMember address).Sees repetitive pair :=
  (steady_cluster repetitive pair).sees ⟨rfl, rfl, rfl, rfl⟩ (Or.inl rfl)

theorem fleet_covers_repetitive :
    pair.isEmpty = false ∧ pair.firstDuplicate? = none ∧
      (forall member, member ∈ pair.addresses.map failingMember ->
        member.Sees repetitive pair) ∧
      Covers repetitive (pair.addresses.map failingMember) := by
  have hsees : forall member, member ∈ pair.addresses.map failingMember ->
      member.Sees repetitive pair :=
    List.forall_mem_map.mpr fun address _ => sees_failingMember address
  exact ⟨rfl, by decide, hsees, fleet_covers rfl (by decide) rfl hsees⟩

end Round

end BrokerProbe
