import BrokerProbe.Proofs.Metric.Ledger
/-!
# Levels of a round

The outcomes of a round are counted, and their latencies kept overall, for topics and
for partitions.  On each level a window shows what it held when it was last claimed
and then the latencies of its scope, each once and in order, whether the window is
published or not.
-/

namespace BrokerProbe

namespace Dialogue

variable {Question : Type} {Answer : Question -> Type} {Value State Item : Type}

end Dialogue

namespace Metric

open Dialogue (Conversation Exchange GivenBy stateAfter)

open Function (update)

namespace Tally

variable {publisher : Publisher} {topics : Topology} {outcomes earlier later : List Probe.Outcome}
variable {outcome : Probe.Outcome} {hall : Hall} {tally : Tally} {scope : Scope}
variable {exchanges : List (Exchange Question Answer)} {capacity : Nat} {handle : Handle}

/-!
# The course of a round
-/

def gathered (publisher : Publisher) (topics : Topology) (outcomes : List Probe.Outcome)
    (hall : Hall) : Tally :=
  (hall.run (gather publisher topics outcomes)).1

def acts (topics : Topology) (outcomes : List Probe.Outcome) : List Act :=
  planActs (plans topics) ++ outcomes.flatMap outcomeActs

def InPlay (topics : Topology) (outcomes : List Probe.Outcome) (scope : Scope) : Prop :=
  exists act, act ∈ acts topics outcomes ∧ act.scope = scope

/--
Whether the window of a scope is its own: a detached one is, and one that stands under
the key of no other scope in play whose windows are published.
-/
def Separate (publisher : Publisher) (commons : Commons) (topics : Topology)
    (outcomes : List Probe.Outcome) (scope : Scope) (handle : Handle) : Prop :=
  (exists number, handle = .detached number) ∨
    forall other, InPlay topics outcomes other -> other ≠ scope ->
      publisher.flags.enabled (other.key publisher.role).kind = true ->
      ¬ commons.Joint (other.key publisher.role).encode (scope.key publisher.role).encode

theorem Separate.apart {commons : Commons} {part : List Act}
    (h : Separate publisher commons topics outcomes scope handle)
    (hpart : part ⊆ acts topics outcomes) :
    forall act, act ∈ part -> act.scope ≠ scope ->
      Apart publisher commons scope handle act.scope :=
  fun act hact hne => h.imp_right fun hsole => hsole act.scope ⟨act, hpart hact, rfl⟩ hne

end Tally

end Metric

end BrokerProbe
