import BrokerProbe.Proofs.Dialogue.InStep
import BrokerProbe.Proofs.Metric.Tally
/-!
# Tallies in step

Two publishers of a role can be compared that find different things in their
registries.  If what they ask for brings them windows that belong together, then
their tallies go in step from the start to the summary.
-/

namespace BrokerProbe

namespace Metric

open Dialogue (InStep)

variable {Place Twin View Value Other : Type}

/-- Which places and which windows belong together, and what is seen of the questions. -/
structure Pairing (Place Twin View : Type) where
  reply : (question : Question) -> Place -> Answer question × Place
  answers : (question : Question) -> Twin -> Answer question × Twin
  places : Place -> Twin -> Prop
  handles : Handle -> Handle -> Prop
  seen : Dialogue.Exchange Question Answer -> Option View

def Recording.Pairs (pairing : Pairing Place Twin View) (fit : Value -> Other -> Prop)
    (recording : Recording Value) (other : Recording Other) : Prop :=
  InStep pairing.reply pairing.answers pairing.places pairing.seen fit recording other

/-- Whether publishers of any role go in step that have these flags. -/
structure Pairing.Joins (pairing : Pairing Place Twin View) (flags others : Flags) : Prop where
  window : forall role key capacity,
    Recording.Pairs pairing pairing.handles (Publisher.window { role, flags } key capacity)
      (Publisher.window { role, flags := others } key capacity)
  showAvailability : forall role ratio,
    Recording.Pairs pairing (fun _ _ => True) (Publisher.showAvailability { role, flags } ratio)
      (Publisher.showAvailability { role, flags := others } ratio)
  record : forall {handle twin}, pairing.handles handle twin -> forall value,
    Recording.Pairs pairing (fun _ _ => True) (Recording.record handle value)
      (Recording.record twin value)
  read : forall handle twin,
    Recording.Pairs pairing (fun _ _ => True) (Recording.read handle) (Recording.read twin)

variable {pairing : Pairing Place Twin View} {flags others : Flags}

def Twinned {Name : Type} (pairing : Pairing Place Twin View) (held : List (Name × Handle))
    (other : List (Name × Handle)) : Prop :=
  List.Forall₂ (fun entry twin => twin.1 = entry.1 ∧ pairing.handles entry.2 twin.2) held other

theorem Twinned.lookup {Name : Type} [BEq Name] {held other : List (Name × Handle)}
    (h : Twinned pairing held other) (name : Name) :
    held.lookup name = none ∧ other.lookup name = none ∨
      exists handle twin, held.lookup name = some handle ∧ other.lookup name = some twin ∧
        pairing.handles handle twin := by
  induction h with
  | nil => exact .inl ⟨rfl, rfl⟩
  | @cons entry twin rest others hentry _ ih =>
      rcases entry with ⟨_, handle⟩
      rcases twin with ⟨own, twin⟩
      obtain ⟨rfl, htwins⟩ := hentry
      simp only [List.lookup_cons]
      cases name == own with
      | true => exact .inr ⟨handle, twin, rfl, rfl, htwins⟩
      | false => exact ih

namespace Tally

structure Twins (pairing : Pairing Place Twin View) (role : Role) (flags others : Flags)
    (tally other : Tally) : Prop where
  publisher : tally.publisher = { role, flags }
  twin : other.publisher = { role, flags := others }
  overall : pairing.handles tally.overall other.overall
  topics : Twinned pairing tally.topics other.topics
  partitions : Twinned pairing tally.partitions other.partitions
  counts : other.counts = tally.counts

variable {role : Role} {tally other : Tally}

theorem Twins.withTopic (h : tally.Twins pairing role flags others other) (name : String)
    {handle twin : Handle} (htwins : pairing.handles handle twin) :
    Twins pairing role flags others { tally with topics := (name, handle) :: tally.topics }
      { other with topics := (name, twin) :: other.topics } :=
  { h with topics := .cons ⟨rfl, htwins⟩ h.topics, counts := h.counts }

theorem Twins.withPartition (h : tally.Twins pairing role flags others other)
    (partition : Partition) {handle twin : Handle} (htwins : pairing.handles handle twin) :
    Twins pairing role flags others
      { tally with partitions := (partition, handle) :: tally.partitions }
      { other with partitions := (partition, twin) :: other.partitions } :=
  { h with partitions := .cons ⟨rfl, htwins⟩ h.partitions, counts := h.counts }

section Joins

variable (hjoins : pairing.Joins flags others)

include hjoins

theorem Twins.pairs_window (h : tally.Twins pairing role flags others other)
    (key : Role -> Key) (capacity : Nat) :
    Recording.Pairs pairing pairing.handles
      (tally.publisher.window (key tally.publisher.role) capacity)
      (other.publisher.window (key other.publisher.role) capacity) := by
  rw [h.publisher, h.twin]
  exact hjoins.window role (key role) capacity

theorem Twins.pairs_claimPartition (h : tally.Twins pairing role flags others other)
    (partition : Partition) :
    Recording.Pairs pairing (Twins pairing role flags others) (tally.claimPartition partition)
      (other.claimPartition partition) :=
  (h.pairs_window hjoins (fun role => .partition role partition) _).bind fun _ _ htwins =>
    InStep.done (h.withPartition partition htwins)

theorem Twins.pairs_plan (h : tally.Twins pairing role flags others other) (topic : Topic) :
    Recording.Pairs pairing (Twins pairing role flags others) (tally.plan topic)
      (other.plan topic) := by
  have hclaim : Recording.Pairs pairing (Twins pairing role flags others)
      (tally.claimTopic topic.name topic.partitionCount)
      (other.claimTopic topic.name topic.partitionCount) :=
    (h.pairs_window hjoins (fun role => .topic role topic.name) _).bind fun _ _ htwins =>
      InStep.done (h.withTopic topic.name htwins)
  refine hclaim.bind fun claimed twin hclaimed => ?_
  exact InStep.foldlM (fun _ _ partition h => h.pairs_claimPartition hjoins partition) hclaimed _

theorem pairs_start (role : Role) (topics : Topology) :
    Recording.Pairs pairing (Twins pairing role flags others) (start { role, flags } topics)
      (start { role, flags := others } topics) := by
  have hwindow := hjoins.window role (.latency role) topics.partitionCount
  refine hwindow.bind fun overall twin hoverall => ?_
  refine InStep.foldlM (fun _ _ topic h => h.pairs_plan hjoins topic) ?_ topics
  exact ⟨rfl, rfl, hoverall, .nil, .nil, rfl⟩

theorem pairs_record {handle twin : Handle} {held following : Tally}
    (htwins : pairing.handles handle twin) (h : held.Twins pairing role flags others following)
    (elapsed : Nat) :
    Recording.Pairs pairing (Twins pairing role flags others)
      (do
        Recording.record handle elapsed
        return held)
      (do
        Recording.record twin elapsed
        return following) :=
  (hjoins.record htwins elapsed).bind fun _ _ _ => InStep.done h

theorem Twins.pairs_recordTopic (h : tally.Twins pairing role flags others other)
    (name : String) (elapsed : Nat) :
    Recording.Pairs pairing (Twins pairing role flags others) (tally.recordTopic name elapsed)
      (other.recordTopic name elapsed) := by
  unfold recordTopic
  rcases h.topics.lookup name with ⟨hheld, hother⟩ | ⟨handle, twin, hheld, hother, htwins⟩
  · rw [hheld, hother]
    refine (h.pairs_window hjoins (fun role => .topic role name) _).bind
      fun handle twin htwins => ?_
    exact pairs_record hjoins htwins (h.withTopic name htwins) elapsed
  · rw [hheld, hother]
    exact pairs_record hjoins htwins h elapsed

theorem Twins.pairs_recordPartition (h : tally.Twins pairing role flags others other)
    (partition : Partition) (elapsed : Nat) :
    Recording.Pairs pairing (Twins pairing role flags others)
      (tally.recordPartition partition elapsed) (other.recordPartition partition elapsed) := by
  unfold recordPartition
  rcases h.partitions.lookup partition with
    ⟨hheld, hother⟩ | ⟨handle, twin, hheld, hother, htwins⟩
  · rw [hheld, hother]
    refine (h.pairs_window hjoins (fun role => .partition role partition) _).bind
      fun handle twin htwins => ?_
    exact pairs_record hjoins htwins (h.withPartition partition htwins) elapsed
  · rw [hheld, hother]
    exact pairs_record hjoins htwins h elapsed

theorem Twins.pairs_recordOutcome (h : tally.Twins pairing role flags others other)
    (outcome : Probe.Outcome) :
    Recording.Pairs pairing (Twins pairing role flags others) (tally.recordOutcome outcome)
      (other.recordOutcome outcome) := by
  have hcounted : (tally.count outcome).Twins pairing role flags others
      (other.count outcome) := by
    refine { h with counts := ?_ }
    rw [counts_count, counts_count, (Prod.mk.inj h.counts).1, (Prod.mk.inj h.counts).2]
  refine (hjoins.record hcounted.overall _).bind fun _ _ _ => ?_
  refine (hcounted.pairs_recordTopic hjoins _ _).bind fun _ _ h => ?_
  exact h.pairs_recordPartition hjoins _ _

theorem Twins.pairs_summary (h : tally.Twins pairing role flags others other) :
    Recording.Pairs pairing
      (fun summary twin => twin = { summary with overall := twin.overall }) tally.summary
      other.summary := by
  refine (hjoins.read tally.overall other.overall).bind fun _ _ _ => InStep.done ?_
  rcases Prod.mk.inj h.counts with ⟨htries, hfailures⟩
  rw [availability, availability, htries, hfailures]

end Joins

end Tally

end Metric

end BrokerProbe
