import BrokerProbe.Metric.Quantile
import Mathlib.Data.Nat.Size
import Mathlib.Tactic.Linarith
/-!
# Buckets of values

Larger values lie in later buckets, and a bucket is narrow: its largest value is
next to every value in it.  The counts of the buckets before a value add up to
the samples that lie in them.
-/

namespace BrokerProbe

namespace Metric

namespace Bucket

/-!
# Where a value lies
-/

theorem shift_of_lt {value : Nat} (h : value < 2048) : shift value = 0 := by
  rcases Nat.eq_zero_or_pos value with rfl | hpos
  · rfl
  · have hlog : value.log2 < 11 := (Nat.log2_lt (Nat.ne_of_gt hpos)).mpr h
    unfold shift
    omega

theorem two_pow_le {value : Nat} (h : 2048 <= value) :
    2 ^ (shift value + 10) <= value ∧ value < 2 ^ (shift value + 11) ∧ 1 <= shift value := by
  have hne : value ≠ 0 := by omega
  have hlog : 11 <= value.log2 := (Nat.le_log2 hne).mpr h
  have hshift : shift value + 10 = value.log2 := by
    unfold shift
    omega
  refine ⟨?_, ?_, by omega⟩
  · rw [hshift]
    exact Nat.log2_self_le hne
  · have hnext : shift value + 11 = value.log2 + 1 := congrArg (· + 1) hshift
    rw [hnext]
    exact Nat.lt_log2_self

theorem index_eq (value : Nat) :
    index value = 1024 * shift value + value / 2 ^ shift value := by
  unfold index
  split
  · next h => simp [shift_of_lt h]
  · rw [Nat.shiftRight_eq_div_pow]

theorem head_bounds {value : Nat} (h : 2048 <= value) :
    1024 <= value / 2 ^ shift value ∧ value / 2 ^ shift value < 2048 := by
  rcases two_pow_le h with ⟨hle, hlt, _⟩
  rw [Nat.pow_add] at hle hlt
  have hpos : 0 < 2 ^ shift value := Nat.two_pow_pos _
  constructor
  · rw [Nat.le_div_iff_mul_le hpos]
    linarith
  · rw [Nat.div_lt_iff_lt_mul hpos]
    linarith

theorem shift_mono {first second : Nat} (h : first <= second) : shift first <= shift second := by
  rcases Nat.eq_zero_or_pos first with rfl | hpos
  · exact Nat.zero_le _
  · have hle := Nat.le_trans (Nat.log2_self_le (Nat.ne_of_gt hpos)) h
    exact Nat.sub_le_sub_right ((Nat.le_log2 (Nat.ne_of_gt (Nat.lt_of_lt_of_le hpos h))).mpr hle) 10

theorem index_mono {first second : Nat} (h : first <= second) : index first <= index second := by
  have hhead : first / 2 ^ shift first < 2048 := by
    rcases Nat.lt_or_ge first 2048 with hsmall | hlarge
    · exact Nat.lt_of_le_of_lt (Nat.div_le_self _ _) hsmall
    · exact (head_bounds hlarge).2
  rw [index_eq, index_eq]
  rcases Nat.lt_or_eq_of_le (shift_mono h) with hlt | heq
  · have hlarge : 2048 <= second := by
      by_contra hsmall
      rw [shift_of_lt (Nat.lt_of_not_le hsmall)] at hlt
      exact Nat.not_lt_zero _ hlt
    have hsecond := (head_bounds hlarge).1
    omega
  · rw [heq]
    exact Nat.add_le_add_left (Nat.div_le_div_right h) _

/-!
# The largest value of a bucket
-/

def ceil (value : Nat) : Nat :=
  top (index value)

theorem ceil_of_lt {value : Nat} (h : value < 2048) : ceil value = value := by
  rw [ceil, index, if_pos h, top, if_pos h]

/-- The first value after the bucket of a value: it is out of range for the largest ones. -/
theorem next_le {value : Nat} (h : 2048 <= value) (hlt : value < 2 ^ 63) :
    (value / 2 ^ shift value + 1) * 2 ^ shift value <= Latency.ceiling := by
  have hshift : shift value + 10 < 63 :=
    (Nat.pow_lt_pow_iff_right Nat.one_lt_two).mp (Nat.lt_of_le_of_lt (two_pow_le h).1 hlt)
  calc (value / 2 ^ shift value + 1) * 2 ^ shift value
      <= 2 ^ 11 * 2 ^ shift value := Nat.mul_le_mul_right _ (head_bounds h).2
    _ = 2 ^ (11 + shift value) := (Nat.pow_add _ _ _).symm
    _ <= 2 ^ 63 := Nat.pow_le_pow_right Nat.two_pos (by omega)
    _ <= Latency.ceiling := by decide

theorem ceil_of_le {value : Nat} (h : 2048 <= value) (hlt : value < 2 ^ 63) :
    ceil value = (value / 2 ^ shift value + 1) * 2 ^ shift value - 1 := by
  rcases head_bounds h with ⟨hlower, hupper⟩
  have hpos := (two_pow_le h).2.2
  have hindex := index_eq value
  have hquotient : index value / 1024 - 1 = shift value := by omega
  have hrest : index value - 1024 * shift value = value / 2 ^ shift value := by omega
  rw [ceil, top, if_neg (by omega)]
  simp only [hquotient, hrest, Nat.shiftLeft_eq]
  rw [Nat.min_eq_left (next_le h hlt)]

/-- A value and the largest one of its bucket differ in the bits that are left out. -/
theorem ceil_bounds {value : Nat} (h : 2048 <= value) (hlt : value < 2 ^ 63) :
    value <= ceil value ∧ ceil value < value + 2 ^ shift value := by
  have hsplit := Nat.div_add_mod value (2 ^ shift value)
  have hrest := Nat.mod_lt value (Nat.two_pow_pos (shift value))
  rw [ceil_of_le h hlt, Nat.add_mul, Nat.one_mul, Nat.mul_comm]
  omega

theorem le_ceil {value : Nat} (hlt : value < 2 ^ 63) : value <= ceil value := by
  rcases Nat.lt_or_ge value 2048 with hsmall | hlarge
  · exact Nat.le_of_eq (ceil_of_lt hsmall).symm
  · exact (ceil_bounds hlarge hlt).1

theorem ceil_mono {first second : Nat} (h : first <= second) (hlt : second < 2 ^ 63) :
    ceil first <= ceil second := by
  rcases Nat.lt_or_ge first 2048 with hsmall | hlarge
  · rw [ceil_of_lt hsmall]
    exact Nat.le_trans h (le_ceil hlt)
  · have hsecond := Nat.le_trans hlarge h
    rcases Nat.lt_or_eq_of_le (shift_mono h) with hshift | hshift
    · -- A longer value is larger than all that lie in the bucket of the shorter one.
      have hnext : (first / 2 ^ shift first + 1) * 2 ^ shift first <= second :=
        calc (first / 2 ^ shift first + 1) * 2 ^ shift first
            <= 2 ^ 11 * 2 ^ shift first := Nat.mul_le_mul_right _ (head_bounds hlarge).2
          _ = 2 ^ (11 + shift first) := (Nat.pow_add _ _ _).symm
          _ <= 2 ^ (shift second + 10) := Nat.pow_le_pow_right Nat.two_pos (by omega)
          _ <= second := (two_pow_le hsecond).1
      rw [ceil_of_le hlarge (Nat.lt_of_le_of_lt h hlt)]
      exact Nat.le_trans (Nat.sub_le _ _) (Nat.le_trans hnext (le_ceil hlt))
    · rw [ceil_of_le hlarge (Nat.lt_of_le_of_lt h hlt), ceil_of_le hsecond hlt, hshift]
      exact Nat.sub_le_sub_right
        (Nat.mul_le_mul_right _ (Nat.succ_le_succ (Nat.div_le_div_right h))) 1

/-!
# How many samples lie before a bucket
-/

theorem sum_modify {table : List Nat} {place : Nat} (h : place < table.length) :
    (table.modify place (· + 1)).sum = table.sum + 1 := by
  induction table generalizing place with
  | nil => cases h
  | cons count rest ih =>
      cases place with
      | zero => simp [Nat.add_right_comm]
      | succ place => simp [ih (Nat.lt_of_succ_lt_succ h), Nat.add_assoc]

theorem sum_take_modify {table : List Nat} {place : Nat} (h : place < table.length)
    (bound : Nat) :
    ((table.modify place (· + 1)).take bound).sum =
      (table.take bound).sum + if place < bound then 1 else 0 := by
  rw [List.take_modify]
  split
  · next hlt =>
    apply sum_modify
    rw [List.length_take]
    exact Nat.lt_min.mpr ⟨hlt, h⟩
  · next hge =>
    rw [List.modify_eq_self (by rw [List.length_take]; omega), Nat.add_zero]

theorem sum_take_foldl (samples : List Nat) {table : Array Nat}
    (h : forall sample, sample ∈ samples -> index sample < table.size) (bound : Nat) :
    ((samples.foldl (fun table sample => table.modify (index sample) (· + 1))
        table).toList.take bound).sum =
      (table.toList.take bound).sum + samples.countP fun sample => index sample < bound := by
  induction samples generalizing table with
  | nil => rfl
  | cons sample rest ih =>
      rw [List.forall_mem_cons] at h
      rw [List.foldl_cons, ih (by simpa using h.2), Array.toList_modify,
        sum_take_modify (by simpa using h.1), List.countP_cons, Nat.add_assoc]
      simp [Nat.add_comm]

theorem sum_take_counts (samples : List Nat) (bound : Nat) :
    ((counts samples).toList.take bound).sum =
      samples.countP fun sample => index sample < bound := by
  have hplaces : forall sample, sample ∈ samples ->
      index sample < (Array.replicate (index (samples.foldl max 0) + 1) 0).size := by
    intro sample hsample
    have hle : sample <= samples.foldl max 0 := by
      rw [List.foldl_max]
      exact Nat.le_trans (List.le_max?_getD_of_mem hsample) (Nat.le_max_right _ _)
    rw [Array.size_replicate]
    exact Nat.lt_succ_of_le (index_mono hle)
  rw [counts, sum_take_foldl samples hplaces]
  simp

end Bucket

end Metric

end BrokerProbe
