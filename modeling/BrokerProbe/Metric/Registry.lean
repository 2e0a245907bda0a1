import BrokerProbe.Metric.Statistics
import BrokerProbe.Metric.Window
/-!
# Registries

A registry holds one instrument under each key, in ascending order of the keys.
The first request for a key installs its instrument; nothing replaces or removes
it afterwards, so a key is as good as the instrument itself.

This is so as long as every instrument has a key of its own (`Commons.Sole`), as
with all that rounds install.  A registry in which a client puts an instrument
under further keys is a `Commons`.
-/

namespace BrokerProbe

namespace Metric

inductive Instrument where
  | window (window : Window)
  | gauge (value : Float)

inductive Reading where
  | window (statistics : Statistics)
  | gauge (value : Float)

instance : Inhabited Instrument := ⟨.gauge 0⟩

inductive Shape where
  | histogram
  | gauge
  deriving DecidableEq, Repr

def Shape.label : Shape -> String
  | histogram => "histogram"
  | gauge => "gauge"

inductive RegistryError where
  | duplicate (key : String)
  | mismatch (key : String) (expected : Shape)
  deriving DecidableEq, Repr

def RegistryError.message : RegistryError -> String
  | duplicate key => "metric already registered: " ++ key
  | mismatch key expected => "metric " ++ key ++ " is not a " ++ expected.label

namespace Instrument

def read : Instrument -> Reading
  | .window held => .window (Statistics.ofSamples held.values)
  | .gauge value => .gauge value

def shape : Instrument -> Shape
  | .window _ => .histogram
  | .gauge _ => .gauge

end Instrument

namespace Registry

def insertNew (key : String) (instrument : Instrument) :
    List (String × Instrument) -> List (String × Instrument)
  | [] => [(key, instrument)]
  | entry :: rest =>
      if key < entry.1 then (key, instrument) :: entry :: rest
      else if key = entry.1 then entry :: rest
      else entry :: insertNew key instrument rest

def changeAt (key : String) (change : Instrument -> Instrument) :
    List (String × Instrument) -> List (String × Instrument)
  | [] => []
  | entry :: rest =>
      if entry.1 = key then (entry.1, change entry.2) :: rest
      else entry :: changeAt key change rest

def Ascending (entries : List (String × Instrument)) : Prop :=
  (entries.map Prod.fst).Pairwise fun first second => first < second

theorem ascending_cons
    {entry : String × Instrument} {rest : List (String × Instrument)} :
    Ascending (entry :: rest) <->
      (forall other, other ∈ rest -> entry.1 < other.1) ∧ Ascending rest := by
  simp [Ascending]

theorem mem_insertNew
    {key : String} {instrument : Instrument} {entry : String × Instrument}
    {entries : List (String × Instrument)}
    (h : entry ∈ insertNew key instrument entries) :
    entry = (key, instrument) ∨ entry ∈ entries := by
  induction entries with
  | nil => exact Or.inl (List.mem_singleton.mp h)
  | cons head rest ih =>
      simp only [insertNew] at h
      split at h
      · exact List.mem_cons.mp h
      · split at h
        · exact Or.inr h
        · cases List.mem_cons.mp h with
          | inl hhead => exact Or.inr (hhead ▸ List.mem_cons_self)
          | inr hrest =>
              exact (ih hrest).imp_right fun hmem => List.mem_cons_of_mem _ hmem

theorem ascending_insertNew
    (key : String) (instrument : Instrument) {entries : List (String × Instrument)}
    (h : Ascending entries) : Ascending (insertNew key instrument entries) := by
  induction entries with
  | nil => simp [insertNew, Ascending]
  | cons head rest ih =>
      obtain ⟨hhead, hrest⟩ := ascending_cons.mp h
      simp only [insertNew]
      split
      · next hlt =>
        refine ascending_cons.mpr ⟨?_, h⟩
        intro other hother
        cases List.mem_cons.mp hother with
        | inl heq => exact heq ▸ hlt
        | inr hmem => exact String.lt_trans hlt (hhead other hmem)
      · next hnlt =>
        split
        · exact h
        · next hne =>
          refine ascending_cons.mpr ⟨?_, ih hrest⟩
          intro other hother
          cases mem_insertNew hother with
          | inl heq =>
              have hlt : head.1 < key := Std.lt_of_le_of_ne (String.not_lt.mp hnlt) (Ne.symm hne)
              exact heq ▸ hlt
          | inr hmem => exact hhead other hmem

theorem keys_changeAt
    (key : String) (change : Instrument -> Instrument)
    (entries : List (String × Instrument)) :
    (changeAt key change entries).map Prod.fst = entries.map Prod.fst := by
  induction entries with
  | nil => rfl
  | cons head rest ih =>
      simp only [changeAt]
      split
      · rfl
      · simp [ih]

theorem ascending_changeAt
    (key : String) (change : Instrument -> Instrument)
    {entries : List (String × Instrument)} (h : Ascending entries) :
    Ascending (changeAt key change entries) := by
  unfold Ascending
  rw [keys_changeAt]
  exact h

end Registry

structure Registry where
  entries : List (String × Instrument)
  ascending : Registry.Ascending entries

namespace Registry

def empty : Registry :=
  { entries := [], ascending := List.Pairwise.nil }

instance : Inhabited Registry := ⟨empty⟩

def get? (registry : Registry) (key : String) : Option Instrument :=
  registry.entries.lookup key

def contains (registry : Registry) (key : String) : Bool :=
  (registry.get? key).isSome

def size (registry : Registry) : Nat :=
  registry.entries.length

def names (registry : Registry) : List String :=
  registry.entries.map Prod.fst

def readings (registry : Registry) : List (String × Reading) :=
  registry.entries.map fun entry => (entry.1, entry.2.read)

def install (registry : Registry) (key : String) (instrument : Instrument) : Registry :=
  { entries := insertNew key instrument registry.entries
    ascending := ascending_insertNew key instrument registry.ascending }

def change (registry : Registry) (key : String) (change : Instrument -> Instrument) :
    Registry :=
  { entries := changeAt key change registry.entries
    ascending := ascending_changeAt key change registry.ascending }

def register (registry : Registry) (key : String) (instrument : Instrument) :
    Except RegistryError Registry :=
  if registry.contains key then .error (.duplicate key)
  else .ok (registry.install key instrument)

def getOrInstall (registry : Registry) (key : String) (instrument : Instrument) :
    Instrument × Registry :=
  match registry.get? key with
  | some present => (present, registry)
  | none => (instrument, registry.install key instrument)

def window (registry : Registry) (key : String) (capacity : Nat) :
    Except RegistryError Window × Registry :=
  match registry.getOrInstall key (.window (.empty capacity)) with
  | (.window window, registry) => (.ok window, registry)
  | (.gauge _, registry) => (.error (.mismatch key .histogram), registry)

def gauge (registry : Registry) (key : String) :
    Except RegistryError Float × Registry :=
  match registry.getOrInstall key (.gauge 0) with
  | (.gauge value, registry) => (.ok value, registry)
  | (.window _, registry) => (.error (.mismatch key .gauge), registry)

/-!
# What the operations do to the instruments
-/

theorem lookup_entry {α : Type}
    (name : String) (held : α) (rest : List (String × α)) (other : String) :
    ((name, held) :: rest).lookup other =
      if other = name then some held else rest.lookup other := by
  by_cases h : other = name
  · simp [h]
  · simp [List.lookup_cons, beq_eq_false_iff_ne.mpr h, h]

theorem lookup_eq_none_of_lt
    {key : String} {entries : List (String × Instrument)}
    (h : forall entry, entry ∈ entries -> key < entry.1) : entries.lookup key = none := by
  induction entries with
  | nil => rfl
  | cons head rest ih =>
      have hne : key ≠ head.1 := by
        intro heq
        exact String.lt_irrefl key (heq ▸ h head List.mem_cons_self)
      rw [lookup_entry, if_neg hne]
      exact ih fun entry hentry => h entry (List.mem_cons_of_mem _ hentry)

theorem lookup_insertNew
    (key : String) (instrument : Instrument) {entries : List (String × Instrument)}
    (h : Ascending entries) (other : String) :
    (insertNew key instrument entries).lookup other =
      if other = key then some ((entries.lookup key).getD instrument)
      else entries.lookup other := by
  induction entries with
  | nil => exact lookup_entry key instrument [] other
  | cons head rest ih =>
      obtain ⟨hhead, hrest⟩ := ascending_cons.mp h
      simp only [insertNew]
      split
      · next hlt =>
        have hnone : (head :: rest).lookup key = none := by
          apply lookup_eq_none_of_lt
          intro entry hentry
          cases List.mem_cons.mp hentry with
          | inl heq => exact heq ▸ hlt
          | inr hmem => exact String.lt_trans hlt (hhead entry hmem)
        rw [lookup_entry, hnone]
        rfl
      · split
        · next heq =>
          rw [lookup_entry, lookup_entry, if_pos heq]
          by_cases hother : other = key
          · rw [if_pos (hother.trans heq), if_pos hother]
            rfl
          · rw [if_neg hother]
        · next hne =>
          rw [lookup_entry, lookup_entry, lookup_entry, ih hrest, if_neg hne]
          by_cases hother : other = key
          · rw [if_neg (fun heq => hne (hother ▸ heq)), if_pos hother, if_pos hother]
          · rw [if_neg hother, if_neg hother]

theorem lookup_changeAt
    (key : String) (change : Instrument -> Instrument)
    (entries : List (String × Instrument)) (other : String) :
    (changeAt key change entries).lookup other =
      if other = key then (entries.lookup key).map change else entries.lookup other := by
  induction entries with
  | nil => simp [changeAt]
  | cons head rest ih =>
      simp only [changeAt]
      split
      · next heq =>
        rw [lookup_entry, lookup_entry, lookup_entry, if_pos heq.symm, heq]
        by_cases hother : other = key
        · rw [if_pos hother, if_pos hother]
          rfl
        · rw [if_neg hother, if_neg hother, if_neg hother]
      · next hne =>
        rw [lookup_entry, lookup_entry, lookup_entry, ih, if_neg (Ne.symm hne)]
        by_cases hother : other = key
        · rw [if_pos hother, if_pos hother, if_neg (fun heq => hne (heq.symm.trans hother))]
        · rw [if_neg hother, if_neg hother]

@[simp] theorem get?_empty (key : String) : empty.get? key = none := rfl

theorem get?_install
    (registry : Registry) (key : String) (instrument : Instrument) (other : String) :
    (registry.install key instrument).get? other =
      if other = key then some ((registry.get? key).getD instrument)
      else registry.get? other :=
  lookup_insertNew key instrument registry.ascending other

theorem get?_change
    (registry : Registry) (key : String) (change : Instrument -> Instrument)
    (other : String) :
    (registry.change key change).get? other =
      if other = key then (registry.get? key).map change else registry.get? other :=
  lookup_changeAt key change registry.entries other

end Registry

end Metric

end BrokerProbe
