import BrokerProbe.Broker.Basic
import BrokerProbe.Proofs.Text.Bytes
import BrokerProbe.Proofs.Topology.Shard
import Mathlib.Data.List.Forall2
/-!
# One topology for all instances

Brokers list topics and partitions in any order.  Listings of the same topics
come to the same topology, so instances that are told different orders still
divide one list of topics among themselves.
-/

namespace BrokerProbe

structure Topic.Matches (first second : Topic) : Prop where
  name_eq : first.name = second.name
  numbers_perm : first.numbers.Perm second.numbers

/-- Whether two listings differ in the order of topics and of partitions at most. -/
def Topology.Relists (first second : List Topic) : Prop :=
  exists middle, first.Perm middle ∧ List.Forall₂ Topic.Matches middle second

theorem pairwise_mergeSort_image {Item Image : Type} [LE Image] [DecidableLE Image]
    [Std.IsLinearPreorder Image] (image : Item -> Image) (items : List Item) :
    (items.mergeSort fun first second => image first <= image second).Pairwise
      fun first second => image first <= image second := by
  have htrans : forall first second third : Item, decide (image first <= image second) = true ->
      decide (image second <= image third) = true ->
        decide (image first <= image third) = true := by
    simpa using fun _ _ _ => Std.le_trans
  have htotal : forall first second : Item,
      (decide (image first <= image second) || decide (image second <= image first)) = true := by
    simpa using fun first second => Std.le_total
  simpa using List.pairwise_mergeSort htrans htotal items

namespace Broker

/-!
# Topics in order
-/

theorem matches_inOrder (topic : Topic) : topic.Matches (inOrder topic) where
  name_eq := rfl
  numbers_perm := (List.mergeSort_perm _ _).symm

theorem numbers_inOrder (topic : Topic) :
    (inOrder topic).numbers.Pairwise fun first second => first <= second :=
  pairwise_mergeSort_image id topic.numbers

theorem inOrder_eq {first second : Topic} (h : first.Matches second) :
    inOrder first = inOrder second := by
  have hperm : (inOrder first).numbers.Perm (inOrder second).numbers :=
    (matches_inOrder first).numbers_perm.symm.trans
      (h.numbers_perm.trans (matches_inOrder second).numbers_perm)
  have hnumbers : (inOrder first).numbers = (inOrder second).numbers :=
    List.Perm.eq_of_pairwise (fun _ _ _ _ => Int.le_antisymm) (numbers_inOrder first)
      (numbers_inOrder second) hperm
  rw [inOrder, Topic.mk.injEq]
  exact ⟨h.name_eq, hnumbers⟩

/-!
# Topics to keep
-/

def Keeps (includeInternal : Bool) (topic : Topic) : Prop :=
  includeInternal = true ∨ ¬ "__".toList <+: topic.name.toList

theorem keeps_iff {includeInternal : Bool} {topic : Topic} :
    (includeInternal || !isInternal topic) = true <-> Keeps includeInternal topic := by
  have hinternal : isInternal topic = true <-> "__".toList <+: topic.name.toList :=
    List.isPrefixOf_iff_prefix
  rw [Keeps, Bool.or_eq_true, Bool.not_eq_true', <- hinternal, Bool.not_eq_true]

instance (includeInternal : Bool) (topic : Topic) : Decidable (Keeps includeInternal topic) :=
  decidable_of_iff _ keeps_iff

def kept (includeInternal : Bool) (listing : List Topic) : List Topic :=
  listing.filter fun topic => Keeps includeInternal topic

theorem topology_eq (includeInternal : Bool) (listing : List Topic) :
    topology includeInternal listing =
      ((kept includeInternal listing).map inOrder).mergeSort byName := by
  have hkept : (listing.filter fun topic => includeInternal || !isInternal topic) =
      kept includeInternal listing := by
    apply List.filter_congr
    intro topic _
    rw [Bool.eq_iff_iff, keeps_iff, decide_eq_true_eq]
  rw [topology, hkept]

theorem kept_matches (includeInternal : Bool) {first second : List Topic}
    (h : List.Forall₂ Topic.Matches first second) :
    (kept includeInternal first).map inOrder = (kept includeInternal second).map inOrder := by
  induction h with
  | nil => rfl
  | @cons topic other rest more hmatches _ ih =>
      have hkeeps : Keeps includeInternal topic <-> Keeps includeInternal other := by
        rw [Keeps, Keeps, hmatches.name_eq]
      unfold kept at ih ⊢
      by_cases hkept : Keeps includeInternal topic
      · rw [List.filter_cons_of_pos (by simpa using hkept),
          List.filter_cons_of_pos (by simpa using hkeeps.mp hkept), List.map_cons, List.map_cons,
          inOrder_eq hmatches, ih]
      · rw [List.filter_cons_of_neg (by simpa using hkept),
          List.filter_cons_of_neg (by simpa using mt hkeeps.mpr hkept), ih]

/-!
# The topology of a listing
-/

variable {includeInternal : Bool} {listing other : List Topic}

theorem relists_topology (includeInternal : Bool) (listing : List Topic) :
    Topology.Relists (kept includeInternal listing) (topology includeInternal listing) := by
  refine ⟨(kept includeInternal listing).mergeSort byName, (List.mergeSort_perm _ _).symm, ?_⟩
  have hsorted : ((kept includeInternal listing).mergeSort byName).map inOrder =
      ((kept includeInternal listing).map inOrder).mergeSort byName :=
    List.map_mergeSort fun _ _ _ _ => rfl
  rw [topology_eq, <- hsorted, List.forall₂_map_right_iff, List.forall₂_same]
  exact fun topic _ => matches_inOrder topic

theorem names_topology (includeInternal : Bool) (listing : List Topic) :
    ((topology includeInternal listing).map Topic.name).Perm
      ((kept includeInternal listing).map Topic.name) := by
  rw [topology_eq]
  refine ((List.mergeSort_perm _ _).map _).trans ?_
  rw [List.map_map]
  exact List.Perm.refl _

theorem nodup_names_topology (hnames : (listing.map Topic.name).Nodup) :
    ((topology includeInternal listing).map Topic.name).Nodup := by
  have hsublist : ((kept includeInternal listing).map Topic.name).Sublist
      (listing.map Topic.name) := List.filter_sublist.map _
  exact (names_topology includeInternal listing).nodup_iff.mpr (hnames.sublist hsublist)

theorem names_le_topology (includeInternal : Bool) (listing : List Topic) :
    (topology includeInternal listing).Pairwise fun first second =>
      first.name <= second.name := by
  rw [topology_eq]
  exact pairwise_mergeSort_image Topic.name _

theorem names_lt_topology (hnames : (listing.map Topic.name).Nodup) :
    (topology includeInternal listing).Pairwise fun first second =>
      Text.bytes first.name < Text.bytes second.name := by
  have hdistinct : (topology includeInternal listing).Pairwise fun first second =>
      first.name ≠ second.name := List.pairwise_map.mp (nodup_names_topology hnames)
  refine ((names_le_topology includeInternal listing).and hdistinct).imp ?_
  intro first second h
  exact Text.bytes_lt_iff.mpr (Std.lt_of_le_of_ne h.1 h.2)

theorem mem_topology {topic : Topic} (h : topic ∈ topology includeInternal listing) :
    exists listed, listed ∈ listing ∧ Keeps includeInternal listed ∧ topic = inOrder listed := by
  rw [topology_eq, List.mem_mergeSort] at h
  rcases List.mem_map.mp h with ⟨listed, hlisted, rfl⟩
  rcases List.mem_filter.mp hlisted with ⟨hmem, hkeeps⟩
  exact ⟨listed, hmem, of_decide_eq_true hkeeps, rfl⟩

theorem topology_eq_of_relists (hnames : (listing.map Topic.name).Nodup)
    (h : Topology.Relists listing other) :
    topology includeInternal other = topology includeInternal listing := by
  rcases h with ⟨middle, hperm, hmatches⟩
  have hkept : ((kept includeInternal listing).map inOrder).Perm
      ((kept includeInternal other).map inOrder) := by
    rw [<- kept_matches includeInternal hmatches]
    exact (hperm.filter _).map _
  have hsame : (topology includeInternal other).Perm (topology includeInternal listing) := by
    rw [topology_eq, topology_eq]
    exact (List.mergeSort_perm _ _).trans (hkept.symm.trans (List.mergeSort_perm _ _).symm)
  refine List.Perm.eq_of_pairwise ?_ (names_le_topology includeInternal other)
    (names_le_topology includeInternal listing) hsame
  intro first second hfirst hsecond hle hge
  exact List.inj_on_of_nodup_map (nodup_names_topology hnames) (hsame.mem_iff.mp hfirst) hsecond
    (String.le_antisymm hle hge)

end Broker

/-!
# Shards of all instances
-/

/-- Whether addresses are those of all instances: the listed ones, or any one if none is. -/
def Roster.Staffs (roster : Roster) (addresses : List String) : Prop :=
  addresses ≠ [] ∧ roster.addresses = addresses ∨
    roster.addresses = [] ∧ exists address, addresses = [address]

theorem Shard.exists_shards {roster : Roster} {addresses : List String}
    (hdistinct : roster.firstDuplicate? = none) (hstaffs : roster.Staffs addresses)
    (topology : Topology) :
    exists shards, List.Forall₂ (fun address shard => plan topology roster address = .ok shard)
        addresses shards ∧
      (shards.flatMap topics).Perm topology := by
  rcases hstaffs with ⟨hne, rfl⟩ | ⟨hempty, address, rfl⟩
  · have hnodup : roster.addresses.Nodup := (firstRepeat?_eq_none_iff _).mp hdistinct
    refine ⟨(List.range roster.addresses.length).map fun position => {
      position
      shardCount := max roster.size 1
      totalTopics := topology.topicCount
      topics := assigned topology roster.size position }, ?_, ?_⟩
    · rw [List.forall₂_iff_get]
      refine ⟨by simp, fun position hposition _ => ?_⟩
      rw [List.get_eq_getElem, plan_eq_ok hnodup topology hposition]
      simp
    · rw [List.flatMap_map]
      exact flatMap_assigned_perm (mt List.eq_nil_of_length_eq_zero hne) topology
  · have hall : assigned topology roster.size 0 = topology := by
      simp [assigned, Roster.size, hempty, shardOf]
    have hplan : plan topology roster address =
        .ok {
          position := 0
          shardCount := max roster.size 1
          totalTopics := topology.topicCount
          topics := assigned topology roster.size 0 } := by
      have hlocate : locate roster address = .ok 0 := by simp [locate, Roster.isEmpty, hempty]
      rw [plan, hlocate]
      rfl
    exact ⟨[_], .cons hplan .nil, by simp [hall]⟩

namespace Broker

structure Instance where
  settings : Settings
  broker : Broker

def Instance.sweep (member : Instance) : Round.Sweep where
  address := member.settings.address
  directory := clients.directory member.settings.roster
  publisher := Fleet.publisher member.settings .consumer

def Instance.shard (member : Instance) (scene : Round.Scene Metric.Logbook) :
    Except SetupError Shard :=
  (scene.play (member.broker.surroundings member.settings) member.sweep.plan).1

theorem Instance.shard_eq {member : Instance} {listing : List Topic}
    (hlisting : member.broker.listing = .ok listing)
    (scene : Round.Scene Metric.Logbook) :
    member.shard scene =
      Shard.plan (topology member.settings.includeInternal listing) member.settings.roster
        member.settings.address := by
  have hfetch : member.broker.fetch member.settings =
      .ok (topology member.settings.includeInternal listing) := by
    rw [fetch, hlisting]
  simp [shard, sweep, Round.Sweep.plan, Round.Asking.fetch, Round.Asking.peers, Round.Scene.play,
    Dialogue.request, Dialogue.run, Round.Scene.reply, Round.Setting.reply, surroundings,
    clients, hfetch]

/-- Whether an instance of a roster is told a listing, in an order of its broker's own. -/
structure Instance.Hears (member : Instance) (includeInternal : Bool) (roster : Roster)
    (listing : List Topic) : Prop where
  includeInternal_eq : member.settings.includeInternal = includeInternal
  roster_eq : member.settings.roster = roster
  listing_eq : exists other, member.broker.listing = .ok other ∧
    Topology.Relists listing other

theorem Instance.Hears.shard_eq {member : Instance} {includeInternal : Bool} {roster : Roster}
    {listing : List Topic} (h : member.Hears includeInternal roster listing)
    (hnames : (listing.map Topic.name).Nodup) (scene : Round.Scene Metric.Logbook) :
    member.shard scene =
      Shard.plan (topology includeInternal listing) roster member.settings.address := by
  rcases h.listing_eq with ⟨other, hother, hrelists⟩
  rw [Instance.shard_eq hother, h.includeInternal_eq, h.roster_eq,
    topology_eq_of_relists hnames hrelists]

structure Unifies (includeInternal : Bool) (listing : List Topic) : Prop where
  unique : forall other, Topology.Relists listing other ->
    topology includeInternal other = topology includeInternal listing
  names_lt : (topology includeInternal listing).Pairwise fun first second =>
    Text.bytes first.name < Text.bytes second.name
  numbers_le : forall topic, topic ∈ topology includeInternal listing ->
    topic.numbers.Pairwise fun first second => first <= second
  /-- All topics to keep are there with all of their partitions, and nothing else is. -/
  complete : Topology.Relists (listing.filter fun topic => Keeps includeInternal topic)
    (topology includeInternal listing)
  internal : includeInternal = false -> forall topic, topic ∈ topology includeInternal listing ->
    ¬ "__".toList <+: topic.name.toList
  /-- Instances that are told different orders plan one shard each of the same topology. -/
  shards : forall (roster : Roster) (members : List Instance), roster.firstDuplicate? = none ->
    roster.Staffs (members.map fun member => member.settings.address) ->
    (forall member, member ∈ members -> member.Hears includeInternal roster listing) ->
    exists shards, List.Forall₂
        (fun (member : Instance) shard => forall scene, member.shard scene = .ok shard)
        members shards ∧
      shards.Pairwise (fun first second =>
        List.Disjoint (first.topics.map Topic.name) (second.topics.map Topic.name)) ∧
      (shards.flatMap Shard.topics).Perm (topology includeInternal listing)

theorem exists_shards {includeInternal : Bool} {listing : List Topic} {roster : Roster}
    {members : List Instance} (hnames : (listing.map Topic.name).Nodup)
    (hdistinct : roster.firstDuplicate? = none)
    (hstaffs : roster.Staffs (members.map fun member => member.settings.address))
    (hhears : forall member, member ∈ members ->
      member.Hears includeInternal roster listing) :
    exists shards, List.Forall₂
        (fun (member : Instance) shard => forall scene, member.shard scene = .ok shard)
        members shards ∧
      shards.Pairwise (fun first second =>
        List.Disjoint (first.topics.map Topic.name) (second.topics.map Topic.name)) ∧
      (shards.flatMap Shard.topics).Perm (topology includeInternal listing) := by
  rcases Shard.exists_shards hdistinct hstaffs (topology includeInternal listing) with
    ⟨shards, hplans, hperm⟩
  rw [List.forall₂_map_left_iff] at hplans
  refine ⟨shards, ?_, ?_, hperm⟩
  · rw [List.forall₂_iff_zip] at hplans ⊢
    refine ⟨hplans.1, fun {member shard} hmem scene => ?_⟩
    rw [(hhears member (List.of_mem_zip hmem).1).shard_eq hnames scene]
    exact hplans.2 hmem
  · -- No name is left for a second shard, since the topology has each name once.
    have hnodup : ((shards.flatMap Shard.topics).map Topic.name).Nodup :=
      (hperm.map _).nodup_iff.mpr (nodup_names_topology hnames)
    rw [List.map_flatMap, List.nodup_flatMap] at hnodup
    exact hnodup.2

/-- Whatever the order of a listing, it comes to one topology, which the instances divide. -/
theorem unifies_of_names {includeInternal : Bool} {listing : List Topic}
    (hnames : (listing.map Topic.name).Nodup) : Unifies includeInternal listing where
  unique _ hrelists := topology_eq_of_relists hnames hrelists
  names_lt := names_lt_topology hnames
  numbers_le topic htopic := by
    rcases mem_topology htopic with ⟨listed, _, _, rfl⟩
    exact numbers_inOrder listed
  complete := relists_topology includeInternal listing
  internal hexcluded topic htopic := by
    rcases mem_topology htopic with ⟨listed, _, hkeeps, rfl⟩
    rcases hkeeps with hincluded | hplain
    · rw [hexcluded] at hincluded
      cases hincluded
    · exact hplain
  shards _ _ hdistinct hstaffs hhears := exists_shards hnames hdistinct hstaffs hhears

/-!
# Two orders
-/

def shuffled : List Topic :=
  [{ name := "orders", numbers := [2, 0, 1] }, { name := "__offsets", numbers := [0] },
    { name := "audit", numbers := [1, 0] }]

def reshuffled : List Topic :=
  [{ name := "__offsets", numbers := [0] }, { name := "audit", numbers := [0, 1] },
    { name := "orders", numbers := [1, 0, 2] }]

theorem relists_reshuffled : Topology.Relists shuffled reshuffled := by
  refine ⟨[{ name := "__offsets", numbers := [0] }, { name := "audit", numbers := [1, 0] },
    { name := "orders", numbers := [2, 0, 1] }], by decide, ?_⟩
  refine .cons ⟨rfl, by decide⟩ (.cons ⟨rfl, by decide⟩ (.cons ⟨rfl, by decide⟩ .nil))

theorem unifies_of_names_shuffled :
    (shuffled.map Topic.name).Nodup ∧ Topology.Relists shuffled reshuffled ∧
      topology false reshuffled = topology false shuffled ∧
      topology false shuffled =
        [{ name := "audit", numbers := [0, 1] }, { name := "orders", numbers := [0, 1, 2] }] := by
  have hnames : (shuffled.map Topic.name).Nodup := by decide
  have hkept : (shuffled.filter fun topic => false || !isInternal topic) =
      [{ name := "orders", numbers := [2, 0, 1] }, { name := "audit", numbers := [1, 0] }] := by
    decide
  have hlater : ¬ "orders" <= "audit" := by decide
  have htopology : topology false shuffled =
      [{ name := "audit", numbers := [0, 1] }, { name := "orders", numbers := [0, 1, 2] }] := by
    rw [topology, hkept]
    simp [inOrder, byName, List.mergeSort, List.MergeSort.Internal.splitInTwo, hlater]
  exact ⟨hnames, relists_reshuffled, (unifies_of_names hnames).unique _ relists_reshuffled,
    htopology⟩

end Broker

end BrokerProbe
