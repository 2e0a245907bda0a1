import BrokerProbe.Metric.Window
/-!
# Samples in a row

What a window holds after many samples: the latest of all it was given, as many
as fit.  So as many new samples as it has room for leave none of the old ones.
-/

namespace BrokerProbe

namespace Metric

namespace Window

inductive Change where
  | record (value : Nat)
  | resize (capacity : Nat)
  deriving DecidableEq, Repr

def apply (window : Window) : Change -> Window
  | .record value => window.record value
  | .resize capacity => window.resize capacity

theorem length_values_le (window : Window) : window.values.length <= window.capacity := by
  rw [length_values]
  exact window.size_le

@[simp] theorem capacity_recordAll (window : Window) (values : List Nat) :
    (window.recordAll values).capacity = window.capacity := by
  induction values generalizing window with
  | nil => rfl
  | cons value rest ih => exact ih (window.record value)

theorem values_recordAll (window : Window) (values : List Nat) :
    (window.recordAll values).values =
      (window.values ++ values).drop
        ((window.values ++ values).length - window.capacity) := by
  induction values generalizing window with
  | nil =>
      rw [List.append_nil, Nat.sub_eq_zero_of_le window.length_values_le]
      rfl
  | cons value rest ih =>
      have hstep : (window.recordAll (value :: rest)).values =
          ((window.record value).values ++ rest).drop
            (((window.record value).values ++ rest).length - window.capacity) :=
        ih (window.record value)
      rw [hstep, values_record]
      split
      · next hfull =>
        -- A full window gives up its oldest sample for the new one.
        cases hvalues : window.values with
        | nil =>
            have hpos := window.capacity_pos
            rw [hvalues, List.length_nil] at hfull
            omega
        | cons oldest later =>
            rw [hvalues, List.length_cons] at hfull
            have hbefore : (later ++ [value] ++ rest).length - window.capacity =
                rest.length := by
              simp only [List.length_append, List.length_cons, List.length_nil]
              omega
            have hafter : (oldest :: later ++ value :: rest).length - window.capacity =
                rest.length + 1 := by
              simp only [List.length_append, List.length_cons]
              omega
            rw [List.tail_cons, hbefore, hafter]
            simp
      · simp

/-- Room for none is room for one, so as many as that room holds are left out of none. -/
theorem sub_clamp (count : Nat) : count - clamp count = count - maximum := by
  unfold clamp maximum
  omega

theorem clamp_le_self {count : Nat} (h : 0 < count) : clamp count <= count := by
  unfold clamp
  omega

theorem values_recordAll_of_capacity_le {window : Window} {values : List Nat}
    (h : window.capacity <= values.length) :
    (window.recordAll values).values = values.drop (values.length - window.capacity) := by
  rw [values_recordAll, List.length_append, Nat.add_sub_assoc h, List.drop_append]
  simp

theorem values_recordAll_of_length {window : Window} {values : List Nat}
    (h : values.length = window.capacity) : (window.recordAll values).values = values := by
  rw [values_recordAll_of_capacity_le (Nat.le_of_eq h.symm), h, Nat.sub_self, List.drop_zero]

theorem values_recordAll_of_fresh {window : Window} {values : List Nat}
    (h : window.values = []) :
    (window.recordAll values).values = values.drop (values.length - window.capacity) := by
  rw [values_recordAll, h, List.nil_append]

end Window

end Metric

end BrokerProbe
