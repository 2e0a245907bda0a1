import BrokerProbe.Proofs.Metric.Handles
import Mathlib.Logic.Function.Basic
/-!
# Scopes of a tally

What a tally does can be told from its plan and its outcomes, whatever it is
answered: it claims a window for each planned scope, and then samples every outcome
in three scopes.  A scope that has no window yet gets one with its first sample.
-/

namespace BrokerProbe

namespace Metric

open Dialogue (Conversation Exchange)

/-- What latencies are kept for: all partitions together, a topic, or one partition. -/
inductive Scope where
  | overall
  | topic (name : String)
  | partition (partition : Partition)
  deriving DecidableEq, Repr

namespace Scope

def key (role : Role) : Scope -> Key
  | overall => .latency role
  | topic name => .topic role name
  | partition own => .partition role own

def around (partition : Partition) : List Scope :=
  [.overall, .topic partition.topic, .partition partition]

end Scope

/-!
# What a tally does
-/

inductive Act where
  | claim (scope : Scope) (capacity : Nat)
  | sample (scope : Scope) (value : Nat)
  deriving DecidableEq, Repr

namespace Act

def scope : Act -> Scope
  | claim scope _ => scope
  | sample scope _ => scope

def samples (scope : Scope) : List Act -> List Nat
  | [] => []
  | claim _ _ :: rest => samples scope rest
  | sample other value :: rest =>
      if other = scope then value :: samples scope rest else samples scope rest

theorem samples_append (scope : Scope) (first second : List Act) :
    samples scope (first ++ second) = samples scope first ++ samples scope second := by
  induction first with
  | nil => rfl
  | cons act rest ih =>
      cases act with
      | claim other capacity => exact ih
      | sample other value =>
          rw [List.cons_append, samples, samples, ih]
          split <;> rfl

theorem samples_eq_nil {scope : Scope} {acts : List Act}
    (h : forall act, act ∈ acts -> act.scope ≠ scope) : samples scope acts = [] := by
  induction acts with
  | nil => rfl
  | cons act rest ih =>
      rw [List.forall_mem_cons] at h
      cases act with
      | claim other capacity => exact ih h.2
      | sample other value => exact (if_neg h.1).trans (ih h.2)

def Unclaimed (scope : Scope) (acts : List Act) : Prop :=
  forall capacity, .claim scope capacity ∉ acts

namespace Unclaimed

variable {scope other : Scope} {capacity : Nat} {act : Act} {acts part first second : List Act}

theorem mono (h : Unclaimed scope acts) (hpart : part ⊆ acts) : Unclaimed scope part :=
  fun capacity hmem => h capacity (hpart hmem)

theorem tail (h : Unclaimed scope (act :: acts)) : Unclaimed scope acts :=
  h.mono (List.subset_cons_self act acts)

theorem ne_of_claim (h : Unclaimed scope (.claim other capacity :: acts)) : other ≠ scope := by
  rintro rfl
  exact h capacity List.mem_cons_self

theorem append (hfirst : Unclaimed scope first) (hsecond : Unclaimed scope second) :
    Unclaimed scope (first ++ second) :=
  fun capacity => List.not_mem_append (hfirst capacity) (hsecond capacity)

end Unclaimed

end Act

variable {publisher : Publisher} {exchanges first second : List (Exchange Question Answer)}
variable {held middle after : Scope -> Option Handle} {acts rest : List Act}
variable {scope : Scope} {capacity value : Nat}

open Function (update)

/-- Whether exchanges are those of some acts, by which these windows come to be held. -/
inductive Follows (publisher : Publisher) : (Scope -> Option Handle) -> List Act ->
    List (Exchange Question Answer) -> (Scope -> Option Handle) -> Prop where
  | done (held : Scope -> Option Handle) : Follows publisher held [] [] held
  | claim {held after : Scope -> Option Handle} {scope : Scope} {capacity : Nat}
      {handle : Handle} {claim later : List (Exchange Question Answer)} {rest : List Act}
      (hclaim : Conversation (publisher.window (scope.key publisher.role) capacity) claim handle)
      (hrest : Follows publisher (update held scope (some handle)) rest later after) :
      Follows publisher held (.claim scope capacity :: rest) (claim ++ later) after
  | known {held after : Scope -> Option Handle} {scope : Scope} {value : Nat}
      {handle : Handle} {later : List (Exchange Question Answer)} {rest : List Act}
      (hheld : held scope = some handle) (hrest : Follows publisher held rest later after) :
      Follows publisher held (.sample scope value :: rest)
        (⟨.record handle value, ()⟩ :: later) after
  | first {held after : Scope -> Option Handle} {scope : Scope} {value : Nat}
      {handle : Handle} {claim later : List (Exchange Question Answer)} {rest : List Act}
      (hheld : held scope = none)
      (hclaim : Conversation (publisher.window (scope.key publisher.role) 1) claim handle)
      (hrest : Follows publisher (update held scope (some handle)) rest later after) :
      Follows publisher held (.sample scope value :: rest)
        (claim ++ ⟨.record handle value, ()⟩ :: later) after

namespace Follows

theorem append (hfirst : Follows publisher held acts first middle)
    (hsecond : Follows publisher middle rest second after) :
    Follows publisher held (acts ++ rest) (first ++ second) after := by
  induction hfirst with
  | done => exact hsecond
  | claim hclaim _ ih =>
      rw [List.append_assoc]
      exact .claim hclaim (ih hsecond)
  | known hheld _ ih => exact .known hheld (ih hsecond)
  | first hheld hclaim _ ih =>
      rw [List.append_assoc]
      exact .first hheld hclaim (ih hsecond)

theorem keeps {handle : Handle} (h : Follows publisher held acts exchanges after)
    (hheld : held scope = some handle) (hclaims : Act.Unclaimed scope acts) :
    after scope = some handle := by
  induction h with
  | done => exact hheld
  | claim _ _ ih =>
      refine ih ?_ hclaims.tail
      rwa [Function.update_of_ne hclaims.ne_of_claim.symm]
  | known _ _ ih => exact ih hheld hclaims.tail
  | first hnone _ _ ih =>
      refine ih ?_ hclaims.tail
      rwa [Function.update_of_ne]
      rintro rfl
      rw [hheld] at hnone
      cases hnone

end Follows

/-!
# The acts of a round
-/

namespace Tally

variable {tally result : Tally} {handle : Handle}

def handle? (tally : Tally) : Scope -> Option Handle
  | .overall => some tally.overall
  | .topic name => tally.topics.lookup name
  | .partition own => tally.partitions.lookup own

def topicPlans (topic : Topic) : List (Scope × Nat) :=
  (.topic topic.name, topic.partitionCount) ::
    topic.partitions.map fun partition => (.partition partition, partitionCapacity)

def plans (topics : Topology) : List (Scope × Nat) :=
  (.overall, topics.partitionCount) :: topics.flatMap topicPlans

def planActs (plans : List (Scope × Nat)) : List Act :=
  plans.map fun plan => .claim plan.1 plan.2

def outcomeActs (outcome : Probe.Outcome) : List Act :=
  (Scope.around outcome.partition).map fun scope => .sample scope outcome.recorded

def gather (publisher : Publisher) (topics : Topology) (outcomes : List Probe.Outcome) :
    Recording Tally := do
  let tally <- start publisher topics
  outcomes.foldlM recordOutcome tally

/-- Whether exchanges are those of some acts by which one tally becomes another. -/
structure Does (tally : Tally) (acts : List Act) (exchanges : List (Exchange Question Answer))
    (result : Tally) : Prop where
  publisher : result.publisher = tally.publisher
  follows : Follows tally.publisher tally.handle? acts exchanges result.handle?

theorem Does.trans {between : Tally} (hfirst : tally.Does acts first between)
    (hsecond : between.Does rest second result) :
    tally.Does (acts ++ rest) (first ++ second) result where
  publisher := hsecond.publisher.trans hfirst.publisher
  follows := hfirst.follows.append (hfirst.publisher ▸ hsecond.follows)

end Tally

end Metric

end BrokerProbe
