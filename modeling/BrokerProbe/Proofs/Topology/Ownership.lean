import BrokerProbe.Proofs.Topology.Shard
import Mathlib.Data.List.Forall2
import Mathlib.Data.Nat.ModEq
/-!
# Who measures which topic

Of `n` instances, the one at position `i` has the topics at positions `i`, `n + i`,
`2 * n + i` and so on.  An address is planned for where it is listed first, so an
address that is listed again leaves the topics of its later position to nobody.
-/

namespace BrokerProbe

theorem getElem?_filter_zipIdx {Item : Type} {count remainder : Nat} (items : List Item)
    {start first : Nat} (hfirst : first < count) (hstart : (start + first) % count = remainder)
    (place : Nat) :
    (((items.zipIdx start).filter fun entry => entry.2 % count == remainder).map
      Prod.fst)[place]? = items[place * count + first]? := by
  induction items generalizing start first place with
  | nil => rfl
  | cons item items ih =>
      rw [List.zipIdx_cons]
      cases first with
      | zero =>
          rw [List.filter_cons_of_pos (by simpa using hstart), List.map_cons]
          cases place with
          | zero => simp
          | succ place =>
              have hlast : (start + 1 + (count - 1)) % count = remainder := by
                rw [Nat.add_assoc, Nat.add_sub_cancel' hfirst, Nat.add_mod_right]
                exact hstart
              have hnext : (place + 1) * count + 0 = place * count + (count - 1) + 1 := by
                rw [Nat.succ_mul]
                omega
              rw [List.getElem?_cons_succ, ih (Nat.sub_lt hfirst Nat.one_pos) hlast, hnext,
                List.getElem?_cons_succ]
      | succ first =>
          have hother : start % count ≠ remainder := by
            rintro rfl
            have hzero : first + 1 ≡ 0 [MOD count] := Nat.ModEq.add_left_cancel' start hstart
            exact absurd (Nat.eq_zero_of_dvd_of_lt (Nat.modEq_zero_iff_dvd.mp hzero) hfirst)
              (Nat.succ_ne_zero first)
          rw [List.filter_cons_of_neg (by simpa using hother), ih (Nat.lt_of_succ_lt hfirst)
            (by rw [Nat.add_assoc, Nat.add_comm 1]; exact hstart)]
          exact List.getElem?_cons_succ.symm

namespace Roster

variable {roster : Roster}

theorem exists_firstAt_iff {position : Nat} (h : position < roster.size) :
    (exists address, roster.FirstAt address position) <->
      ¬ exists earlier, earlier < position ∧
        roster.addresses[earlier]? = roster.addresses[position]? := by
  constructor
  · rintro ⟨address, hat, hbefore⟩ ⟨earlier, hearlier, hsame⟩
    exact hbefore earlier hearlier (hsame.trans hat)
  · intro hnever
    have hat := List.getElem?_eq_getElem h
    exact ⟨_, hat, fun earlier hearlier hsame =>
      hnever ⟨earlier, hearlier, hsame.trans hat.symm⟩⟩

theorem firstDuplicate?_eq_none_iff :
    roster.firstDuplicate? = none <->
      forall position, position < roster.size ->
        exists address, roster.FirstAt address position := by
  rw [firstDuplicate?, firstRepeat?_eq_none_iff]
  constructor
  · exact fun hnodup position h => ⟨_, firstAt_of_nodup hnodup h⟩
  · intro hfirst
    refine List.nodup_iff_getElem?_ne_getElem?.mpr fun earlier position hearlier hposition => ?_
    exact fun hsame => (exists_firstAt_iff hposition).mp (hfirst position hposition)
      ⟨earlier, hearlier, hsame⟩

end Roster

theorem filterMap_getElem?_range {Item : Type} (items : List Item) :
    ((List.range items.length).filterMap fun index => items[index]?) = items := by
  induction items with
  | nil => rfl
  | cons item items ih =>
      rw [List.length_cons, List.range_succ_eq_map, List.filterMap_cons, List.filterMap_map]
      exact congrArg (item :: ·) ih

namespace Shard

variable {topology : Topology} {roster : Roster} {address : String}

theorem getElem?_assigned {peers position : Nat} (h : position < peers) (topology : Topology)
    (place : Nat) : (assigned topology peers position)[place]? =
      topology[place * peers + position]? := by
  rw [assigned_eq (Nat.ne_zero_of_lt h)]
  exact getElem?_filter_zipIdx topology h (by rw [Nat.zero_add, Nat.mod_eq_of_lt h]) place

structure Strides (shard : Shard) (topology : Topology) (peers position : Nat) : Prop where
  position_eq : shard.position = position
  shardCount_eq : shard.shardCount = peers
  totalTopics_eq : shard.totalTopics = topology.length
  getElem?_topics : forall place, shard.topics[place]? = topology[place * peers + position]?

theorem exists_strides {position : Nat} (h : roster.FirstAt address position)
    (topology : Topology) : exists shard, plan topology roster address = .ok shard ∧
      shard.Strides topology roster.size position :=
  ⟨_, plan_of_firstAt h topology, {
    position_eq := rfl
    shardCount_eq := Nat.max_eq_left (Nat.zero_lt_of_lt h.lt)
    totalTopics_eq := rfl
    getElem?_topics := getElem?_assigned h.lt topology }⟩

theorem strides_of_plan (hroster : roster.addresses ≠ []) {shard : Shard}
    (h : plan topology roster address = .ok shard) :
    exists position, roster.FirstAt address position ∧
      shard.Strides topology roster.size position := by
  have hlisted : (roster.indexOf? address).isSome := by
    rw [isSome_indexOf?]
    by_contra habsent
    cases h.symm.trans (plan_eq_error_iff.mpr ⟨rfl, hroster, habsent⟩)
  rcases Option.isSome_iff_exists.mp hlisted with ⟨position, hposition⟩
  rw [Roster.indexOf?_eq_some_iff] at hposition
  rcases exists_strides hposition topology with ⟨other, hother, hstrides⟩
  cases h.symm.trans hother
  exact ⟨position, hposition, hstrides⟩

theorem Strides.lt_length_iff {shard : Shard} {peers position place : Nat}
    (h : shard.Strides topology peers position) :
    place < shard.topics.length <-> place * peers + position < topology.length := by
  rw [<- Nat.not_le, <- Nat.not_le, <- List.getElem?_eq_none_iff, h.getElem?_topics,
    List.getElem?_eq_none_iff]

theorem Strides.length_le {shard other : Shard} {peers position otherPosition : Nat}
    (h : shard.Strides topology peers position)
    (hother : other.Strides topology peers otherPosition) (hlt : otherPosition < peers) : shard.topics.length <= other.topics.length + 1 := by
  rw [<- Nat.not_lt, h.lt_length_iff, Nat.not_lt]
  have hend := mt hother.lt_length_iff.mpr (Nat.lt_irrefl other.topics.length)
  rw [Nat.not_lt] at hend
  rw [Nat.succ_mul]
  omega

/-!
# Interleaving
-/

def interleave (parts : List Topology) : Topology :=
  (List.range (parts.map List.length).sum).filterMap fun index =>
    parts[index % parts.length]?.bind fun part => part[index / parts.length]?

theorem interleave_assigned {peers : Nat} (hpeers : peers ≠ 0) (topology : Topology) :
    interleave ((List.range peers).map (assigned topology peers)) = topology := by
  have hsum := sum_topicCount hpeers topology
  have hall : forall index,
      (((List.range peers).map (assigned topology peers))[index % peers]?.bind fun part =>
        part[index / peers]?) = topology[index]? := by
    intro index
    have hlt : index % peers < peers := Nat.mod_lt _ (Nat.pos_of_ne_zero hpeers)
    rw [List.getElem?_map, List.getElem?_range hlt, Option.map_some, Option.bind_some,
      getElem?_assigned hlt, Nat.div_add_mod']
  rw [interleave, List.map_map, List.length_map, List.length_range]
  simp only [hall]
  exact (congrArg (fun count => (List.range count).filterMap fun index => topology[index]?)
    hsum).trans (filterMap_getElem?_range topology)

theorem interleave_plans (hroster : roster.addresses ≠ []) (hnodup : roster.addresses.Nodup)
    {shards : List Shard} (h : List.Forall₂
      (fun address shard => plan topology roster address = .ok shard) roster.addresses shards) :
    interleave (shards.map topics) = topology := by
  have hlength : roster.addresses.length = shards.length := h.length_eq
  have hparts : shards.map topics = (List.range roster.size).map
      (assigned topology roster.size) := by
    refine List.ext_getElem (by simp [Roster.size, hlength]) fun position hposition _ => ?_
    rw [List.length_map, <- hlength] at hposition
    have hplan := h.get hposition (hlength ▸ hposition)
    rw [List.get_eq_getElem, plan_eq_ok hnodup topology hposition] at hplan
    have htopics := congrArg topics (Except.ok.inj hplan)
    simpa using htopics.symm
  have hpeers : roster.size ≠ 0 := fun hsize => hroster (List.eq_nil_of_length_eq_zero hsize)
  rw [hparts, interleave_assigned hpeers]

/-!
# Ownership
-/

/-- Whether the plan of an address has a topic whose place stands for a position. -/
def Plans (topology : Topology) (roster : Roster) (address : String) (index : Nat) : Prop :=
  exists shard place, plan topology roster address = .ok shard ∧ place < shard.topics.length ∧
    place * shard.shardCount + shard.position = index

theorem plans_iff (hroster : roster.addresses ≠ []) {index : Nat} :
    Plans topology roster address index <->
      index < topology.length ∧ roster.FirstAt address (index % roster.size) := by
  constructor
  · rintro ⟨shard, place, hplan, hplace, rfl⟩
    rcases strides_of_plan hroster hplan with ⟨position, hposition, hstrides⟩
    rw [hstrides.position_eq, hstrides.shardCount_eq, Nat.mul_add_mod_self_right,
      Nat.mod_eq_of_lt hposition.lt]
    exact ⟨hstrides.lt_length_iff.mp hplace, hposition⟩
  · rintro ⟨hindex, hposition⟩
    rcases exists_strides hposition topology with ⟨shard, hplan, hstrides⟩
    have hindexEq : index / roster.size * roster.size + index % roster.size = index :=
      Nat.div_add_mod' _ _
    refine ⟨shard, index / roster.size, hplan, ?_, ?_⟩
    · rw [hstrides.lt_length_iff, hindexEq]
      exact hindex
    · rw [hstrides.position_eq, hstrides.shardCount_eq, hindexEq]

theorem plans_iff_mem (hroster : roster.addresses ≠ []) (hnodup : topology.Nodup) {index : Nat}
    (h : index < topology.length) :
    Plans topology roster address index <->
      exists shard, plan topology roster address = .ok shard ∧ topology[index] ∈ shard.topics := by
  constructor
  · rintro ⟨shard, place, hplan, _, rfl⟩
    rcases strides_of_plan hroster hplan with ⟨position, _, hstrides⟩
    have hat := hstrides.getElem?_topics place
    rw [<- hstrides.shardCount_eq, <- hstrides.position_eq, List.getElem?_eq_getElem h] at hat
    exact ⟨shard, hplan, List.mem_of_getElem? hat⟩
  · rintro ⟨shard, hplan, hmem⟩
    rcases strides_of_plan hroster hplan with ⟨position, _, hstrides⟩
    rcases List.getElem_of_mem hmem with ⟨place, hplace, htopic⟩
    have hat := hstrides.getElem?_topics place
    rw [List.getElem?_eq_getElem hplace, htopic, eq_comm] at hat
    rcases List.getElem?_eq_some_iff.mp hat with ⟨_, hsame⟩
    have hindex := (List.Nodup.getElem_inj_iff hnodup).mp hsame
    exact ⟨shard, place, hplan, hplace, by
      rw [hstrides.shardCount_eq, hstrides.position_eq, hindex]⟩

theorem not_plans_iff (hroster : roster.addresses ≠ []) {index : Nat}
    (hindex : index < topology.length) :
    (forall address, ¬ Plans topology roster address index) <->
      exists earlier, earlier < index % roster.size ∧
        roster.addresses[earlier]? = roster.addresses[index % roster.size]? := by
  have hlt : index % roster.size < roster.size := Nat.mod_lt _ (List.length_pos_iff.mpr hroster)
  rw [<- not_exists, not_iff_comm, <- Roster.exists_firstAt_iff hlt]
  simp only [plans_iff hroster, hindex, true_and]

theorem firstDuplicate?_eq_none_iff_existsUnique (hroster : roster.addresses ≠ []) :
    roster.firstDuplicate? = none <->
      forall (topology : Topology) (index : Nat), index < topology.length ->
        ∃! address, address ∈ roster.addresses ∧ Plans topology roster address index := by
  rw [Roster.firstDuplicate?_eq_none_iff]
  constructor
  · intro hfirst topology index hindex
    have hlt := Nat.mod_lt index (List.length_pos_iff.mpr hroster)
    rcases hfirst _ hlt with ⟨address, haddress⟩
    refine ⟨address, ⟨haddress.mem, (plans_iff hroster).mpr ⟨hindex, haddress⟩⟩, ?_⟩
    rintro other ⟨_, hother⟩
    exact Option.some.inj (((plans_iff hroster).mp hother).2.1.symm.trans haddress.1)
  · -- A topology that reaches a position is enough to find the owner there.
    intro howned position hposition
    have hlength : position < (List.replicate (position + 1) (default : Topic)).length := by simp
    rcases (howned _ position hlength).exists with ⟨address, _, hplans⟩
    have hfirst := ((plans_iff hroster).mp hplans).2
    rw [Nat.mod_eq_of_lt hposition] at hfirst
    exact ⟨address, hfirst⟩

end Shard

open Shard

structure Roster.Divides (roster : Roster) : Prop where
  /-- An address has the topics from where it is listed first, one in each turn. -/
  strides : forall topology address position, roster.FirstAt address position ->
    exists shard, plan topology roster address = .ok shard ∧
      shard.Strides topology roster.size position
  /-- Without repetitions, the plans of all addresses in turn are the topology. -/
  interleaving : roster.firstDuplicate? = none -> forall topology shards,
    List.Forall₂ (fun address shard => plan topology roster address = .ok shard)
      roster.addresses shards ->
    interleave (shards.map topics) = topology
  /-- Two addresses differ by one topic at most. -/
  balance : forall topology first second shard other,
    plan topology roster first = .ok shard -> plan topology roster second = .ok other ->
    shard.topics.length <= other.topics.length + 1
  /-- What is planned at a position is its topic, and nobody else has it. -/
  membership : forall (topology : Topology) address index (h : index < topology.length),
    topology.Nodup -> (Plans topology roster address index <->
      exists shard, plan topology roster address = .ok shard ∧ topology[index] ∈ shard.topics)
  /-- Every position has one owner exactly where no address is repeated. -/
  ownership : roster.firstDuplicate? = none <->
    forall (topology : Topology) (index : Nat), index < topology.length ->
      ∃! address, address ∈ roster.addresses ∧ Plans topology roster address index
  /-- A position has no owner if the address there is listed before. -/
  abandonment : forall (topology : Topology) (index : Nat), index < topology.length ->
    ((forall address, ¬ Plans topology roster address index) <->
      exists earlier, earlier < index % roster.size ∧
        roster.addresses[earlier]? = roster.addresses[index % roster.size]?)

theorem Roster.divides {roster : Roster} (h : roster.addresses ≠ []) : roster.Divides where
  strides topology _ _ hfirst := exists_strides hfirst topology
  interleaving hnone _ _ hplans :=
    interleave_plans h ((firstRepeat?_eq_none_iff _).mp hnone) hplans
  balance _ _ _ _ _ hfirst hsecond := by
    rcases strides_of_plan h hfirst with ⟨_, _, hshard⟩
    rcases strides_of_plan h hsecond with ⟨_, hposition, hother⟩
    exact hshard.length_le hother hposition.lt
  membership _ _ _ hindex hnodup := plans_iff_mem h hnodup hindex
  ownership := firstDuplicate?_eq_none_iff_existsUnique h
  abandonment _ _ hindex := not_plans_iff h hindex

theorem Roster.divides_repeated :
    ({ addresses := ["north", "south", "north"] } : Roster).addresses ≠ [] ∧
      forall address, ¬ Plans [⟨"orders", [0]⟩, ⟨"logs", [0, 1]⟩, ⟨"events", [0]⟩]
        { addresses := ["north", "south", "north"] } address 2 :=
  ⟨by decide, ((Roster.divides (by decide)).abandonment _ 2 (by decide)).mpr
    ⟨0, by decide, rfl⟩⟩

end BrokerProbe
