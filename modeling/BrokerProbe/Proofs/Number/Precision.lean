import BrokerProbe.Number.Precision
import Mathlib.Tactic.Linarith
/-!
# How far rounding goes

To round to some number of bits changes a number by no more than its share of
the last of these bits, up or down.
-/

namespace BrokerProbe

namespace Number

theorem nearestMultiple_near {unit : Nat} (hunit : 0 < unit) (value : Nat) :
    2 * nearestMultiple unit value <= 2 * value + unit ∧
      2 * value <= 2 * nearestMultiple unit value + unit := by
  have hsplit := Nat.div_add_mod value unit
  have hrest := Nat.mod_lt value hunit
  unfold nearestMultiple
  simp only
  split
  · next hup =>
    have hhalf : unit <= 2 * (value % unit) := by
      simp only [Bool.or_eq_true, decide_eq_true_eq, Bool.and_eq_true, beq_iff_eq] at hup
      omega
    rw [Nat.add_mul, Nat.one_mul, Nat.mul_comm (value / unit)]
    omega
  · next hdown =>
    have hhalf : 2 * (value % unit) <= unit := by
      simp only [Bool.or_eq_true, decide_eq_true_eq, not_or] at hdown
      omega
    rw [Nat.mul_comm (value / unit)]
    omega

theorem unit_mul_le {bits value : Nat} (hne : value ≠ 0) (h : bits <= value.log2) :
    (1 <<< (value.log2 + 1 - bits)) * 2 ^ bits <= 2 * value := by
  have hpow : (1 <<< (value.log2 + 1 - bits)) * 2 ^ bits = 2 * 2 ^ value.log2 := by
    rw [Nat.one_shiftLeft, <- Nat.pow_add, Nat.sub_add_cancel (by omega), Nat.pow_succ']
  rw [hpow]
  exact Nat.mul_le_mul_left 2 (Nat.log2_self_le hne)

theorem toPrecision_near (bits value : Nat) :
    2 ^ bits * toPrecision bits value <= 2 ^ bits * value + value ∧
      2 ^ bits * value <= 2 ^ bits * toPrecision bits value + value := by
  rcases Nat.eq_zero_or_pos value with rfl | hpos
  · simp [toPrecision, nearestMultiple_zero]
  rcases Nat.lt_or_ge value.log2 bits with hfits | hlong
  · rw [toPrecision_of_log2_lt hfits]
    omega
  · have hunit : 0 < 1 <<< (value.log2 + 1 - bits) := by
      rw [Nat.one_shiftLeft]
      exact Nat.two_pow_pos _
    rcases nearestMultiple_near hunit value with ⟨hupper, hlower⟩
    have hsmall := unit_mul_le (Nat.ne_of_gt hpos) hlong
    unfold toPrecision
    generalize 1 <<< (value.log2 + 1 - bits) = unit at hupper hlower hsmall
    have hupper := Nat.mul_le_mul_left (2 ^ bits) hupper
    have hlower := Nat.mul_le_mul_left (2 ^ bits) hlower
    constructor
    · linarith
    · linarith

end Number

end BrokerProbe
