import BrokerProbe.Proofs.Metric.Filtering
import BrokerProbe.Proofs.Round.InStep
/-!
# Flags only filter

What a publisher keeps back changes nothing but what is found in the registry.
Rounds with some flags ask the cluster what they would ask with all of them, and
end in the same way; the registry is the other one, less what is kept back.
-/

namespace BrokerProbe

namespace Round

variable {flags : Metric.Flags}

/-!
# Rounds in a row
-/

structure Turn where
  role : Role
  task : Task
  occasion : Occasion

namespace Turn

def round (turn : Turn) (flags : Metric.Flags) : Asking Ending :=
  turn.task.round { role := turn.role, flags }

def play (turn : Turn) (flags : Metric.Flags) (registry : Metric.Registry) :
    Ending × Metric.Registry :=
  turn.occasion.play (turn.round flags) registry

def calls (turn : Turn) (flags : Metric.Flags) (registry : Metric.Registry) : List Call :=
  Round.calls (turn.occasion.transcript (turn.round flags) registry)

def registryAfter (flags : Metric.Flags) (turns : List Turn) : Metric.Registry :=
  turns.foldl (fun registry turn => (turn.play flags registry).2) .empty

variable {registry full : Metric.Registry}

theorem play_filtered (turn : Turn) (h : registry = full.restrict flags.publishes) :
    (turn.play flags registry).1.Alike (turn.play .all full).1 ∧
      (turn.play flags registry).2 = (turn.play .all full).2.restrict flags.publishes ∧
      turn.calls flags registry = turn.calls .all full := by
  have hpaired : (turn.occasion.scene registry).Paired (Metric.filtering flags)
      (turn.occasion.scene full) := ⟨h, rfl, rfl⟩
  rcases turn.task.pairs_round (Metric.joins_filtering flags) _ _ hpaired with
    ⟨halike, hafter, hseen⟩
  exact ⟨halike, hafter.space, (eq_of_seen? hseen).1⟩

theorem registryAfter_filtered (flags : Metric.Flags) (turns : List Turn) :
    registryAfter flags turns = (registryAfter .all turns).restrict flags.publishes := by
  have hfrom : forall registry full : Metric.Registry,
      registry = full.restrict flags.publishes ->
      turns.foldl (fun registry turn => (turn.play flags registry).2) registry =
        (turns.foldl (fun registry turn => (turn.play .all registry).2) full).restrict
          flags.publishes := by
    induction turns with
    | nil => exact fun _ _ h => h
    | cons turn rest ih => exact fun _ _ h => ih _ _ (turn.play_filtered h).2.1
  exact hfrom .empty .empty (Metric.Registry.restrict_empty _).symm

end Turn

structure OnlyFilter (flags : Metric.Flags) (earlier : List Turn) (turn : Turn) : Prop where
  registry : Turn.registryAfter flags earlier =
    (Turn.registryAfter .all earlier).restrict flags.publishes
  /-- That is, with the keys of the kinds that are enabled. -/
  kinds : forall key : Metric.Key, (Turn.registryAfter flags earlier).get? key.encode =
    if flags.enabled key.kind then (Turn.registryAfter .all earlier).get? key.encode else none
  calls : turn.calls flags (Turn.registryAfter flags earlier) =
    turn.calls .all (Turn.registryAfter .all earlier)
  ending : (turn.play flags (Turn.registryAfter flags earlier)).1.Alike
    (turn.play .all (Turn.registryAfter .all earlier)).1

/-- Rounds with flags do what they would do with all flags, in less of a registry. -/
theorem only_filter (flags : Metric.Flags) (earlier : List Turn) (turn : Turn) :
    OnlyFilter flags earlier turn := by
  have hregistry := Turn.registryAfter_filtered flags earlier
  rcases turn.play_filtered hregistry with ⟨hending, _, hcalls⟩
  refine ⟨hregistry, ?_, hcalls, hending⟩
  intro key
  rw [hregistry, Metric.Registry.get?_restrict, Metric.Flags.publishes_encode]

end Round

end BrokerProbe
