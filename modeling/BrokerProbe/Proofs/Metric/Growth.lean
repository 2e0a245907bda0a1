import BrokerProbe.Proofs.Metric.Pool
import BrokerProbe.Proofs.Metric.Tally
/-!
# How a registry grows

A key comes into the registry when its instrument is asked for, and stays there.
Its instrument stays as well: nothing is done to it but what its handles allow.
-/

namespace BrokerProbe

namespace Metric

open Dialogue (Conversation Exchange stateAfter)

variable {exchanges : List (Exchange Question Answer)} {space : Space} {text : String}

namespace Question

/-- The key that a question asks the instrument of; it has one from then on. -/
def claims? : Question -> Option String
  | .window key _ => some key
  | .gauge key => some key
  | _ => none

def claimed (questions : List Question) : List String :=
  questions.filterMap claims?

@[simp] theorem claimed_append (first second : List Question) :
    claimed (first ++ second) = claimed first ++ claimed second :=
  List.filterMap_append

theorem effectAt_ne_none_iff (question : Question) (held : Option Instrument) :
    question.effectAt text held ≠ none <-> held ≠ none ∨ question.claims? = some text := by
  unfold effectAt
  split
  · next hkey =>
    cases question with
    | window own capacity =>
        cases hkey
        rcases held with _ | _ <;> simp [effect, claims?]
    | gauge own =>
        cases hkey
        rcases held with _ | _ <;> simp [effect, claims?]
    | _ => rcases held with _ | _ | _ <;> simp [effect, claims?]
  · next hkey =>
    have hclaims : question.claims? ≠ some text := by
      cases question <;> simp_all [claims?, key?]
    simp [hclaims]

theorem effectAt_some (question : Question) (text : String) (held : Instrument) :
    exists changes : List Change, question.effectAt text (some held) =
      some (changes.foldl (fun held change => change.apply held) held) := by
  unfold effectAt
  split
  · cases question with
    | resize handle capacity =>
        exact ⟨[.window (.resize capacity)], by cases held <;> rfl⟩
    | record handle value =>
        exact ⟨[.window (.record value)], by cases held <;> rfl⟩
    | set key value =>
        exact ⟨[.set value], by cases held <;> rfl⟩
    | _ => exact ⟨[], by cases held <;> rfl⟩
  · exact ⟨[], rfl⟩

end Question

theorem Space.mem_names_stateAfter :
    text ∈ (stateAfter reply space exchanges).registry.names <->
      text ∈ space.registry.names ∨
        text ∈ Question.claimed (exchanges.map Exchange.question) := by
  induction exchanges generalizing space with
  | nil => simp [stateAfter, Question.claimed]
  | cons exchange rest ih =>
      have hreply : text ∈ (space.reply exchange.question).2.registry.names <->
          text ∈ space.registry.names ∨ exchange.question.claims? = some text := by
        rw [Registry.mem_names_iff_ne_none, Registry.mem_names_iff_ne_none, get?_reply,
          Question.effectAt_ne_none_iff]
      have hclaimed : text ∈ Question.claimed
          (exchange.question :: rest.map Exchange.question) <->
          exchange.question.claims? = some text ∨
            text ∈ Question.claimed (rest.map Exchange.question) := by
        simp [Question.claimed, List.mem_filterMap]
      rw [Dialogue.stateAfter_cons, ih, hreply, List.map_cons, hclaimed, or_assoc]

theorem Space.get?_stateAfter_some {held : Instrument}
    (h : space.registry.get? text = some held) :
    exists changes : List Change,
      (stateAfter reply space exchanges).registry.get? text =
        some (changes.foldl (fun held change => change.apply held) held) := by
  induction exchanges generalizing space held with
  | nil => exact ⟨[], h⟩
  | cons exchange rest ih =>
      rcases exchange.question.effectAt_some text held with ⟨first, hfirst⟩
      have hreply := space.get?_reply exchange.question text
      rw [h, hfirst] at hreply
      rcases ih hreply with ⟨second, hsecond⟩
      refine ⟨first ++ second, ?_⟩
      rw [List.foldl_append]
      exact hsecond

/-!
# What a tally claims
-/

namespace Tally

theorem claimed_claims (role : Role) (topics : Topology) :
    Question.claimed (claims role topics) =
      (Key.latency role).encode :: topics.flatMap fun topic =>
        (Key.topic role topic.name).encode ::
          topic.partitions.map fun partition => (Key.partition role partition).encode := by
  have hclaim : forall key capacity, Question.claimed (claim key capacity) = [key.encode] :=
    fun _ _ => rfl
  have hpartitions : forall partitions : List Partition,
      Question.claimed (partitions.flatMap (partitionClaim role)) =
        partitions.map fun partition => (Key.partition role partition).encode := by
    intro partitions
    induction partitions with
    | nil => rfl
    | cons partition rest ih =>
        rw [List.flatMap_cons, Question.claimed_append, ih, partitionClaim, hclaim]
        rfl
  have htopics : forall topics : Topology,
      Question.claimed (topics.flatMap (topicClaims role)) =
        topics.flatMap fun topic => (Key.topic role topic.name).encode ::
          topic.partitions.map fun partition => (Key.partition role partition).encode := by
    intro topics
    induction topics with
    | nil => rfl
    | cons topic rest ih =>
        rw [List.flatMap_cons, Question.claimed_append, ih, topicClaims,
          Question.claimed_append, hclaim, hpartitions]
        rfl
  rw [claims, Question.claimed_append, hclaim, htopics]
  rfl

theorem mem_claimed_claims {role : Role} {topics : Topology} :
    text ∈ Question.claimed (claims role topics) <->
      text = (Key.latency role).encode ∨
        (exists topic, topic ∈ topics ∧ (Key.topic role topic.name).encode = text) ∨
        exists partition, partition ∈ topics.partitions ∧
          (Key.partition role partition).encode = text := by
  rw [claimed_claims]
  simp only [List.mem_cons, List.mem_flatMap, List.mem_map, Topology.partitions]
  grind

theorem claimed_samples (role : Role) (samples : List (Partition × Nat)) :
    Question.claimed (samples.flatMap (records role)) = [] := by
  induction samples with
  | nil => rfl
  | cons sample rest ih =>
      rw [List.flatMap_cons, Question.claimed_append, ih]
      rfl

end Tally

theorem Publisher.claimed_showAvailability {publisher : Publisher} {ratio : Option Float}
    {shown : Option String} (hflags : publisher.flags = .all)
    (h : Conversation (publisher.showAvailability ratio) exchanges shown) :
    Question.claimed (exchanges.map Exchange.question) =
      if ratio.isSome then [(Key.availability publisher.role).encode] else [] := by
  unfold Publisher.showAvailability at h
  rw [if_pos (by rw [hflags]; rfl)] at h
  cases ratio with
  | none =>
      rcases h.done_inv with ⟨rfl, rfl⟩
      rfl
  | some ratio =>
      rcases h.request_bind_inv with ⟨answer, rest, rfl, hrest⟩
      cases answer with
      | error error =>
          rcases hrest.done_inv with ⟨rfl, rfl⟩
          rfl
      | ok granted =>
          rcases hrest.request_bind_inv with ⟨_, nothing, rfl, hdone⟩
          rcases hdone.done_inv with ⟨rfl, rfl⟩
          rfl

end Metric

end BrokerProbe
