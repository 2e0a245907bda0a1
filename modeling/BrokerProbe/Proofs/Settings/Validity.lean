import BrokerProbe.Proofs.Topology.Shard
import BrokerProbe.Settings.Basic
/-!
# Valid settings

What settings come to that pass their checks: there are roles, each of them once
and none that writes, no limit keeps a worker from its first round, and the
roster has a place for the address of the instance.
-/

namespace BrokerProbe

namespace Settings

structure Valid (settings : Settings) : Prop where
  cluster : Text.isBlank settings.cluster = false
  servers : Text.isBlank settings.servers = false
  roles_ne_nil : settings.roles ≠ []
  producer_not_mem : .producer ∉ settings.roles
  roles_nodup : settings.roles.Nodup
  metadataTimeout : settings.metadataTimeout ≠ 0
  readTimeout : settings.readTimeout ≠ 0
  maxRounds : settings.maxRounds ≠ some 0
  roster_nodup : settings.roster.addresses.Nodup
  enrols : settings.roster.Enrols settings.address

theorem check_eq_none_iff {condition : Prop} [Decidable condition] {invalidity : Invalidity}
    {rest : Option Invalidity} :
    (if condition then some invalidity else rest) = none <-> ¬ condition ∧ rest = none := by
  split <;> simp [*]

theorem enrols_iff (roster : Roster) (address : String) :
    (roster.isEmpty || roster.contains address) = true <-> roster.Enrols address := by
  rw [Bool.or_eq_true, Roster.isEmpty, List.isEmpty_iff, Roster.contains,
    Shard.isSome_indexOf?, Roster.Enrols]

theorem invalidity?_eq_none_iff (settings : Settings) :
    settings.invalidity? = none <-> settings.Valid := by
  have hroster := firstRepeat?_eq_none_iff settings.roster.addresses
  rw [<- Roster.firstDuplicate?] at hroster
  unfold invalidity?
  cases hduplicate : settings.roster.firstDuplicate? with
  | some address =>
      simp only [check_eq_none_iff, reduceCtorEq, and_false, false_iff]
      intro h
      rw [hroster.mpr h.roster_nodup] at hduplicate
      cases hduplicate
  | none =>
      have hlast :
          (if settings.roster.isEmpty || settings.roster.contains settings.address then none
            else some (Invalidity.notInRoster settings.address settings.roster.size)) = none <->
              settings.roster.Enrols settings.address := by
        rw [<- enrols_iff]
        split <;> simp [*]
      simp only [check_eq_none_iff, hlast, Option.isSome_eq_false_iff,
        Option.isNone_iff_eq_none, firstRepeat?_eq_none_iff, List.isEmpty_iff,
        List.contains_iff_mem, Bool.not_eq_true]
      constructor
      · rintro ⟨hcluster, hservers, hroles, hproducer, hnodup, htimeouts, hrounds, henrols⟩
        simp only [Bool.or_eq_false_iff, decide_eq_false_iff_not] at htimeouts
        exact ⟨hcluster, hservers, hroles, hproducer, hnodup, htimeouts.1, htimeouts.2, hrounds,
          hroster.mp hduplicate, henrols⟩
      · intro h
        refine ⟨h.cluster, h.servers, h.roles_ne_nil, h.producer_not_mem, h.roles_nodup, ?_,
          h.maxRounds, h.enrols⟩
        simp [h.metadataTimeout, h.readTimeout]

/-- Settings pass their checks if all that the checks stand for holds, and only then. -/
theorem validate_eq_ok_iff (settings : Settings) :
    settings.validate = .ok () <-> settings.Valid := by
  rw [<- invalidity?_eq_none_iff, validate]
  cases settings.invalidity? <;> simp

end Settings

end BrokerProbe
