import BrokerProbe.Queue
/-!
# Sliding windows

A window keeps the most recent samples up to its capacity.  The capacity can
change while samples are held; what no longer fits is given up, the oldest
first.
-/

namespace BrokerProbe

namespace Metric

namespace Window

def maximum : Nat := 1048576

/-- The capacity in force when one is asked for: at least one, at most the maximum. -/
def clamp (capacity : Nat) : Nat :=
  max 1 (min capacity maximum)

theorem clamp_pos (capacity : Nat) : 0 < clamp capacity := by
  unfold clamp
  omega

theorem clamp_le (capacity : Nat) : clamp capacity <= maximum := by
  unfold clamp maximum
  omega

end Window

structure Window where
  capacity : Nat
  samples : Queue Nat
  capacity_pos : 0 < capacity
  capacity_le : capacity <= Window.maximum
  size_le : samples.size <= capacity

namespace Window

def empty (capacity : Nat) : Window :=
  { capacity := clamp capacity
    samples := .empty
    capacity_pos := clamp_pos capacity
    capacity_le := clamp_le capacity
    size_le := Nat.zero_le _ }

instance : Inhabited Window := ⟨empty 1⟩

def values (window : Window) : List Nat :=
  window.samples.toList

def size (window : Window) : Nat :=
  window.samples.size

/-- The samples that stay when one more comes: a full window gives up its oldest one. -/
def kept (window : Window) : Queue Nat :=
  if window.samples.size = window.capacity then window.samples.pop else window.samples

theorem size_kept_lt (window : Window) : window.kept.size < window.capacity := by
  have hpos := window.capacity_pos
  have hle := window.size_le
  unfold kept
  split
  · rw [Queue.size_pop]
    omega
  · omega

def record (window : Window) (value : Nat) : Window :=
  { window with
    samples := window.kept.push value
    size_le := window.size_kept_lt }

def recordAll (window : Window) (values : List Nat) : Window :=
  values.foldl record window

def resize (window : Window) (capacity : Nat) : Window :=
  { capacity := clamp capacity
    samples := window.samples.drop (window.samples.size - clamp capacity)
    capacity_pos := clamp_pos capacity
    capacity_le := clamp_le capacity
    size_le := by
      rw [Queue.size_drop]
      omega }

/-!
# What the operations do to the values
-/

@[simp] theorem length_values (window : Window) : window.values.length = window.size := by
  simp [values, size]

@[simp] theorem values_empty (capacity : Nat) : (empty capacity).values = [] := rfl

theorem values_record (window : Window) (value : Nat) :
    (window.record value).values =
      (if window.values.length = window.capacity then window.values.tail
        else window.values) ++ [value] := by
  unfold values record
  rw [Queue.toList_push, Queue.length_toList]
  unfold kept
  split
  · rw [Queue.toList_pop]
  · rfl

theorem values_resize (window : Window) (capacity : Nat) :
    (window.resize capacity).values =
      window.values.drop (window.values.length - clamp capacity) := by
  simp [values, resize]

@[simp] theorem capacity_record (window : Window) (value : Nat) :
    (window.record value).capacity = window.capacity := rfl

@[simp] theorem capacity_resize (window : Window) (capacity : Nat) :
    (window.resize capacity).capacity = clamp capacity := rfl

end Window

end Metric

end BrokerProbe
