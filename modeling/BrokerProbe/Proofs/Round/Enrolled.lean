import BrokerProbe.Proofs.Round.Protocol
import BrokerProbe.Proofs.Round.Survey
/-!
# Rounds of an enrolled instance

An instance is enrolled in a roster that lists its address, or nobody's.  If its
look-ups find this roster, then only the fetch of the topology can refuse its
sweeps, and each refused sweep has fetched in vain once.
-/

namespace BrokerProbe

namespace Round

open Dialogue (Conversation)

/-- Whether a question asks nobody to stop, and looks nowhere but in one directory. -/
def Question.Within (directory : Directory) : Question -> Prop
  | .peers other => other = directory
  | .stopAll => False
  | _ => True

def Exchange.Finds (roster : Roster) : Exchange -> Prop
  | ⟨.peers _, answer⟩ => answer = .ok roster
  | _ => True

def Call.isFailedFetch : Call -> Bool
  | fetch (.error _) => true
  | _ => false

def Exchange.isFailedFetch (exchange : Exchange) : Bool :=
  (exchange.call?.map Call.isFailedFetch).getD false

def failedFetches (exchanges : List Exchange) : Nat :=
  exchanges.countP Exchange.isFailedFetch

theorem failedFetches_eq (exchanges : List Exchange) :
    failedFetches exchanges = (calls exchanges).countP Call.isFailedFetch := by
  rw [calls, List.countP_filterMap]
  rfl

def Ending.isRefused : Ending -> Bool
  | refused _ => true
  | _ => false

variable {exchanges : List Exchange} {ending : Ending} {roster : Roster}

namespace Sweep

variable {sweep : Sweep}

theorem asks_round_within (sweep : Sweep) :
    sweep.round.Asks (Question.Within sweep.directory) :=
  asks_round (fun _ _ => trivial) trivial (fun _ => trivial) (fun _ => trivial) sweep trivial rfl

theorem shard_of_enrols {setUp : SetUp} {directory : Directory} {elapsed : Nat}
    {address : String} (henrols : roster.Enrols address)
    (hfinds : forall exchange, exchange ∈ setUp.exchanges directory elapsed ->
      exchange.Finds roster) :
    (exists cause, setUp = .unfetched cause) ∨
      exists topology shard, setUp = .listed topology roster ∧ setUp.shard address = .ok shard := by
  cases setUp with
  | unfetched cause => exact .inl ⟨cause, rfl⟩
  | unlisted => cases hfinds _ (List.mem_cons_of_mem _ List.mem_cons_self)
  | listed topology found =>
      cases hfinds _ (List.mem_cons_of_mem _ List.mem_cons_self)
      rcases Shard.exists_plan henrols topology with ⟨shard, hplan⟩
      exact .inr ⟨topology, shard, rfl, hplan⟩

theorem Way.enrolled (h : Way sweep exchanges ending) (henrols : roster.Enrols sweep.address)
    (hfinds : forall exchange, exchange ∈ exchanges -> exchange.Finds roster) :
    (forall address size, ending ≠ .refused (.notInRoster address size)) ∧
      failedFetches exchanges = ending.isRefused.toNat := by
  rw [failedFetches_eq]
  rcases h with @⟨elapsed, setUp, error, shown, key, hplan, hshows⟩ |
    @⟨elapsed, setUp, shard, measuring, _, hplan, hmeasures⟩
  · rw [List.forall_mem_cons, List.forall_mem_append] at hfinds
    rcases shard_of_enrols henrols hfinds.2.1 with ⟨cause, rfl⟩ | ⟨topology, shard, rfl, hok⟩
    · cases hplan
      refine ⟨nofun, ?_⟩
      simp [Exchange.entered, Exchange.released, SetUp.calls, List.countP_cons,
        Call.isFailedFetch, Ending.isRefused]
    · cases hok.symm.trans hplan
  · rw [List.forall_mem_cons, List.forall_mem_append] at hfinds
    rcases shard_of_enrols henrols hfinds.2.1 with ⟨cause, rfl⟩ | ⟨topology, _, rfl, _⟩
    · cases hplan
    · have hending : ending.isRefused = false := by
        cases ending with
        | refused error => exact absurd rfl (hmeasures.ne_refused error)
        | _ => rfl
      refine ⟨fun _ _ => hmeasures.ne_refused _, ?_⟩
      rw [hending]
      simp [Exchange.entered, hmeasures.calls_eq, SetUp.calls, Call.isFailedFetch,
        Call.ofReading]

end Sweep

theorem Survey.asks_round_within (survey : Survey) (directory : Directory) :
    survey.round.Asks (Question.Within directory) :=
  asks_round (fun _ _ => trivial) trivial trivial (fun _ => trivial) survey

end Round

end BrokerProbe
