import BrokerProbe.Proofs.Metric.Window
import Mathlib.Data.List.DropRight
/-!
# What a window retains

A window is given samples and other capacities in any order.  It retains the
latest of its samples, and how many can be told without following them: every
capacity that was ever in force has let through what it had room for and what
came after it was replaced, and no more.
-/

namespace BrokerProbe

namespace Metric

namespace Window

def applyAll (window : Window) (changes : List Change) : Window :=
  changes.foldl apply window

def recorded : List Change -> List Nat
  | [] => []
  | .record value :: rest => value :: recorded rest
  | .resize _ :: rest => recorded rest

def requested (capacity : Nat) : List Change -> Nat
  | [] => capacity
  | .record _ :: rest => requested capacity rest
  | .resize other :: rest => requested other rest

/-- For each capacity that is asked for, its room and the samples after it was replaced. -/
def bounds (capacity : Nat) : List Change -> List Nat
  | [] => [clamp capacity]
  | .record _ :: rest => bounds capacity rest
  | .resize other :: rest => (clamp capacity + (recorded rest).length) :: bounds other rest

def retained (capacity : Nat) (changes : List Change) : Nat :=
  (bounds capacity changes).foldr min (recorded changes).length

variable {window : Window} {capacity : Nat} {changes : List Change}

@[simp] theorem applyAll_cons (window : Window) (change : Change) (rest : List Change) :
    window.applyAll (change :: rest) = (window.apply change).applyAll rest := rfl

/-- What the capacity in force bounds, and what each one bounds that was replaced. -/
inductive Bound (capacity : Nat) (changes : List Change) : Nat -> Prop where
  | now : Bound capacity changes (clamp (requested capacity changes))
  | earlier (before : List Change) (next : Nat) (after : List Change)
      (h : changes = before ++ .resize next :: after) :
      Bound capacity changes (clamp (requested capacity before) + (recorded after).length)

theorem Bound.record {bound value : Nat} (h : Bound capacity changes bound) :
    Bound capacity (.record value :: changes) bound := by
  cases h with
  | now => exact .now
  | earlier before next after h =>
      exact .earlier (.record value :: before) next after (congrArg _ h)

theorem Bound.resize {bound next : Nat} (h : Bound next changes bound) :
    Bound capacity (.resize next :: changes) bound := by
  cases h with
  | now => exact .now
  | earlier before other after h =>
      exact .earlier (.resize next :: before) other after (congrArg _ h)

theorem mem_bounds_iff {bound : Nat} :
    bound ∈ bounds capacity changes <-> Bound capacity changes bound := by
  constructor
  · intro h
    induction changes generalizing capacity with
    | nil =>
        cases List.mem_singleton.mp h
        exact .now
    | cons change rest ih =>
        cases change with
        | record value => exact (ih h).record
        | resize next =>
            rcases List.mem_cons.mp h with rfl | hrest
            · exact .earlier [] next rest rfl
            · exact (ih hrest).resize
  · intro h
    induction changes generalizing capacity with
    | nil =>
        cases h with
        | now => exact List.mem_singleton_self _
        | earlier before next after h => simp at h
    | cons change rest ih =>
        cases h with
        | now =>
            cases change with
            | record value => exact ih .now
            | resize next => exact List.mem_cons_of_mem _ (ih .now)
        | earlier before next after h =>
            cases before with
            | nil =>
                cases h
                exact List.mem_cons_self
            | cons first before =>
                rcases List.cons.inj h with ⟨rfl, rfl⟩
                cases change with
                | record value => exact ih (.earlier before next after rfl)
                | resize other => exact List.mem_cons_of_mem _ (ih (.earlier before next after rfl))

/-!
# How many
-/

theorem foldr_min_min (bounds : List Nat) (total room : Nat) :
    bounds.foldr min (min total room) = min (bounds.foldr min total) room := by
  induction bounds with
  | nil => rfl
  | cons bound rest ih => rw [List.foldr_cons, ih, List.foldr_cons, min_assoc]

theorem foldr_min_le (bounds : List Nat) (total : Nat) : bounds.foldr min total <= total := by
  induction bounds with
  | nil => exact Nat.le_refl _
  | cons bound rest ih => exact Nat.le_trans (Nat.min_le_right _ _) ih

theorem foldr_min_le_of_mem {bounds : List Nat} {bound : Nat} (h : bound ∈ bounds)
    (total : Nat) : bounds.foldr min total <= bound := by
  induction bounds with
  | nil => cases h
  | cons first rest ih =>
      rcases List.mem_cons.mp h with rfl | hrest
      · exact Nat.min_le_left _ _
      · exact Nat.le_trans (Nat.min_le_right _ _) (ih hrest)

theorem foldr_bounds_le (capacity : Nat) (changes : List Change) (total : Nat) :
    (bounds capacity changes).foldr min total <= clamp capacity + (recorded changes).length := by
  induction changes with
  | nil => exact foldr_min_le_of_mem List.mem_cons_self _
  | cons change rest ih =>
      cases change with
      | record value =>
          rw [recorded, List.length_cons, bounds]
          omega
      | resize other => exact foldr_min_le_of_mem List.mem_cons_self _

theorem size_record (window : Window) (value : Nat) :
    (window.record value).size = min (window.size + 1) window.capacity := by
  have hle := window.length_values_le
  have hpos := window.capacity_pos
  rw [<- length_values, values_record, List.length_append]
  rw [length_values] at hle ⊢
  split
  · rw [List.length_tail, length_values, List.length_singleton]
    omega
  · rw [length_values, List.length_singleton]
    omega

theorem size_resize (window : Window) (capacity : Nat) :
    (window.resize capacity).size = min window.size (clamp capacity) := by
  rw [<- length_values, values_resize, List.length_drop, length_values]
  omega

theorem capacity_applyAll (h : window.capacity = clamp capacity) (changes : List Change) :
    (window.applyAll changes).capacity = clamp (requested capacity changes) := by
  induction changes generalizing window capacity with
  | nil => exact h
  | cons change rest ih =>
      cases change with
      | record value => exact ih h
      | resize other => exact ih rfl

theorem size_applyAll (h : window.capacity = clamp capacity) (changes : List Change) :
    (window.applyAll changes).size =
      (bounds capacity changes).foldr min (window.size + (recorded changes).length) := by
  induction changes generalizing window capacity with
  | nil => exact (Nat.min_eq_right (h ▸ window.size_le)).symm
  | cons change rest ih =>
      have hroom := foldr_bounds_le capacity rest
      cases change with
      | record value =>
          have hrecord : (window.record value).capacity = clamp capacity := h
          rw [applyAll_cons, apply, ih hrecord, size_record, h, <- Nat.add_min_add_right,
            foldr_min_min, Nat.min_eq_left (hroom _), recorded, List.length_cons, bounds,
            Nat.add_right_comm, Nat.add_assoc]
      | resize other =>
          have hle : window.size <= clamp capacity := h ▸ window.size_le
          have htotal := foldr_min_le (bounds other rest) (window.size + (recorded rest).length)
          have hnext := foldr_bounds_le other rest
          rw [applyAll_cons, apply, ih rfl, size_resize, <- Nat.add_min_add_right, foldr_min_min,
            Nat.min_eq_left (hnext _), recorded, bounds, List.foldr_cons]
          omega

/-!
# Which
-/

theorem suffix_apply (window : Window) (change : Change) :
    (window.apply change).values <:+ window.values ++ recorded [change] := by
  cases change with
  | record value =>
      rw [apply, values_record, recorded, recorded]
      split
      · cases window.values with
        | nil => exact List.suffix_rfl
        | cons oldest rest => exact List.suffix_cons oldest (rest ++ [value])
      · exact List.suffix_rfl
  | resize capacity =>
      rw [apply, values_resize, recorded, recorded, List.append_nil]
      exact List.drop_suffix _ _

theorem recorded_cons (change : Change) (rest : List Change) :
    recorded (change :: rest) = recorded [change] ++ recorded rest := by
  cases change <;> rfl

theorem suffix_applyAll (window : Window) (changes : List Change) :
    (window.applyAll changes).values <:+ window.values ++ recorded changes := by
  induction changes generalizing window with
  | nil => exact (List.append_nil _).symm ▸ List.suffix_rfl
  | cons change rest ih =>
      rcases window.suffix_apply change with ⟨older, hsplit⟩
      have hextend : (window.apply change).values ++ recorded rest <:+
          window.values ++ recorded (change :: rest) :=
        ⟨older, by rw [recorded_cons, <- List.append_assoc, hsplit, List.append_assoc]⟩
      exact (ih _).trans hextend

/--
What a window shows that was opened with some capacity.  It holds the latest of
its samples, as many as every capacity that was in force has let through.
-/
structure Shows (capacity : Nat) (changes : List Change) (window : Window) : Prop where
  values : window.values = (recorded changes).rtake (retained capacity changes)
  size : window.size = retained capacity changes
  capacity_eq : window.capacity = clamp (requested capacity changes)
  capacity_pos : 1 <= window.capacity
  capacity_le : window.capacity <= maximum
  size_le : window.size <= window.capacity
  retained_le : retained capacity changes <= (recorded changes).length ∧
    forall bound, Bound capacity changes bound -> retained capacity changes <= bound
  retained_eq : retained capacity changes = (recorded changes).length ∨
    Bound capacity changes (retained capacity changes)
  unchanged : forall samples : List Nat, changes = samples.map Change.record ->
    window.values = samples.rtake (min (clamp capacity) samples.length)

theorem foldr_min_mem (bounds : List Nat) (total : Nat) :
    bounds.foldr min total = total ∨ bounds.foldr min total ∈ bounds := by
  induction bounds with
  | nil => exact .inl rfl
  | cons bound rest ih =>
      rw [List.foldr_cons]
      rcases Nat.le_total bound (rest.foldr min total) with hle | hle
      · rw [Nat.min_eq_left hle]
        exact .inr List.mem_cons_self
      · rw [Nat.min_eq_right hle]
        exact ih.imp_right (List.mem_cons_of_mem bound)

theorem recorded_map_record (samples : List Nat) :
    recorded (samples.map .record) = samples := by
  induction samples with
  | nil => rfl
  | cons sample rest ih => exact congrArg _ ih

theorem bounds_map_record (capacity : Nat) (samples : List Nat) :
    bounds capacity (samples.map .record) = [clamp capacity] := by
  induction samples with
  | nil => rfl
  | cons sample rest ih => exact ih

/-- Whatever samples and capacities a window is given, it shows the latest as far as they fit. -/
theorem shows_applyAll (capacity : Nat) (changes : List Change) :
    Shows capacity changes ((empty capacity).applyAll changes) := by
  have hsize : ((empty capacity).applyAll changes).size = retained capacity changes := by
    have hempty : (empty capacity).size = 0 := rfl
    rw [size_applyAll rfl, retained, hempty, Nat.zero_add]
  have hvalues : ((empty capacity).applyAll changes).values =
      (recorded changes).rtake (retained capacity changes) := by
    have hsuffix := List.suffix_iff_eq_drop.mp ((empty capacity).suffix_applyAll changes)
    rw [length_values, hsize, values_empty, List.nil_append] at hsuffix
    exact hsuffix
  refine ⟨hvalues, hsize, capacity_applyAll rfl changes, capacity_pos _, Window.capacity_le _,
    Window.size_le _, ⟨foldr_min_le _ _, ?_⟩, ?_, ?_⟩
  · intro bound hbound
    exact foldr_min_le_of_mem (mem_bounds_iff.mpr hbound) _
  · exact (foldr_min_mem _ _).imp_right mem_bounds_iff.mp
  · rintro samples rfl
    rw [hvalues, retained, recorded_map_record, bounds_map_record]
    rfl

example : ((empty 4).applyAll [.record 1, .record 2, .record 3, .record 4, .resize 2,
    .resize 3, .record 5]).values = [3, 4, 5] := by decide

end Window

end Metric

end BrokerProbe
