import BrokerProbe.Metric.Registry
import BrokerProbe.Proofs.Text.Bytes
import Mathlib.Data.List.Nodup
/-!
# What a registry lists

A registry lists each of its keys once, in ascending order, with its instrument.
So it is known by what is found under each key, and its listings say neither
more nor less than that.
-/

namespace BrokerProbe

namespace Metric

namespace Registry

variable {entries : List (String × Instrument)} {key : String} {held : Instrument}

theorem mem_iff_lookup (h : Ascending entries) :
    (key, held) ∈ entries <-> entries.lookup key = some held := by
  induction entries with
  | nil => simp
  | cons entry rest ih =>
      obtain ⟨hhead, hrest⟩ := ascending_cons.mp h
      rw [lookup_entry, List.mem_cons, ih hrest]
      by_cases heq : key = entry.1
      · subst heq
        rw [if_pos rfl, lookup_eq_none_of_lt hhead]
        simp [Prod.ext_iff, eq_comm]
      · rw [if_neg heq]
        exact or_iff_right fun hentry => heq (congrArg Prod.fst hentry)

variable (registry : Registry)

theorem nodup_names : registry.names.Nodup := by
  refine List.Pairwise.imp ?_ registry.ascending
  rintro first _ hlt rfl
  exact String.lt_irrefl first hlt

theorem mem_entries_iff :
    (key, held) ∈ registry.entries <-> registry.get? key = some held :=
  mem_iff_lookup registry.ascending

/-- A registry is known by what is found under each key. -/
theorem ext_get? {first second : Registry} (h : forall key, first.get? key = second.get? key) :
    first = second := by
  have hentries : first.entries = second.entries := by
    have hperm : first.entries.Perm second.entries := by
      rw [List.perm_ext_iff_of_nodup first.nodup_names.of_map second.nodup_names.of_map]
      rintro ⟨key, held⟩
      rw [mem_entries_iff, mem_entries_iff, h]
    have hfirst := List.pairwise_map.mp first.ascending
    have hsecond := List.pairwise_map.mp second.ascending
    exact hperm.eq_of_pairwise (fun _ _ _ _ hlt hgt => absurd hgt (String.lt_asymm hlt))
      hfirst hsecond
  cases first
  cases second
  cases hentries
  rfl

/-!
# Its keys
-/

theorem mem_names_iff : key ∈ registry.names <-> exists held, registry.get? key = some held := by
  simp [names, <- mem_entries_iff]

theorem mem_names_iff_ne_none : key ∈ registry.names <-> registry.get? key ≠ none := by
  rw [mem_names_iff, Option.ne_none_iff_exists']

theorem contains_iff : registry.contains key = true <-> registry.get? key ≠ none := by
  rw [contains, Option.isSome_iff_ne_none]

theorem names_pairwise :
    registry.names.Pairwise fun first second => Text.bytes first < Text.bytes second :=
  registry.ascending.imp Text.bytes_lt_iff.mpr

theorem names_eq_of_mem_iff {first second : Registry}
    (h : forall key, key ∈ first.names <-> key ∈ second.names) : first.names = second.names := by
  have hperm : first.names.Perm second.names :=
    (List.perm_ext_iff_of_nodup first.nodup_names second.nodup_names).mpr h
  exact hperm.eq_of_pairwise (fun _ _ _ _ hlt hgt => absurd hgt (String.lt_asymm hlt))
    first.ascending second.ascending

@[simp] theorem length_names : registry.names.length = registry.size :=
  List.length_map _

theorem map_fst_readings : registry.readings.map Prod.fst = registry.names := by
  simp [readings, names]

end Registry

end Metric

end BrokerProbe
