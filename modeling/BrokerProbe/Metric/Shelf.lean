import BrokerProbe.Metric.Registry
/-!
# Shelves

Registries that are known by name.  A registry is empty until it is first used,
so every name has one, and what is put under one name is not seen under another.
-/

namespace BrokerProbe

namespace Metric

structure Shelf where
  entries : List (String × Registry)

namespace Shelf

def empty : Shelf :=
  { entries := [] }

instance : Inhabited Shelf := ⟨empty⟩

/-- The registry of a name; it is empty until it is first used. -/
def get (shelf : Shelf) (name : String) : Registry :=
  (shelf.entries.lookup name).getD .empty

def putIn (name : String) (registry : Registry) :
    List (String × Registry) -> List (String × Registry)
  | [] => [(name, registry)]
  | entry :: rest =>
      if name = entry.1 then (name, registry) :: rest
      else entry :: putIn name registry rest

def put (shelf : Shelf) (name : String) (registry : Registry) : Shelf :=
  { entries := putIn name registry shelf.entries }

/-!
# What is found under a name
-/

theorem lookup_putIn
    (name : String) (registry : Registry) (entries : List (String × Registry))
    (other : String) :
    (putIn name registry entries).lookup other =
      if other = name then some registry else entries.lookup other := by
  induction entries with
  | nil => exact Registry.lookup_entry name registry [] other
  | cons entry rest ih =>
      simp only [putIn]
      split
      · next heq =>
        rw [Registry.lookup_entry, Registry.lookup_entry, <- heq]
        split
        · rfl
        · rfl
      · next hne =>
        rw [Registry.lookup_entry, Registry.lookup_entry, ih]
        by_cases h : other = name
        · rw [if_pos h, if_pos h, if_neg (fun heq => hne (h.symm.trans heq))]
        · rw [if_neg h, if_neg h]

@[simp] theorem get_empty (name : String) : empty.get name = .empty := rfl

theorem get_put (shelf : Shelf) (name : String) (registry : Registry) (other : String) :
    (shelf.put name registry).get other =
      if other = name then registry else shelf.get other := by
  simp only [get, put, lookup_putIn]
  split
  · rfl
  · rfl

@[simp] theorem get_put_self (shelf : Shelf) (name : String) (registry : Registry) :
    (shelf.put name registry).get name = registry := by
  rw [get_put, if_pos rfl]

end Shelf

end Metric

end BrokerProbe
