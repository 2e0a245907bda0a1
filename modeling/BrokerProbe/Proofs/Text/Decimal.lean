import Mathlib.Algebra.GroupWithZero.Nat
import BrokerProbe.Text.Decimal
/-!
# Reading back written numbers

A number is written with its decimal digits, the most significant first, and reading
them gives it back as long as a word of sixty-four bits holds it.
-/

namespace BrokerProbe

namespace Text

theorem digitsFrom?_eq {cs : List Char} (h : forall c, c ∈ cs -> c.isDigit = true) (value : Nat) :
    digitsFrom? value cs = some (Nat.ofDigitChars 10 cs value) := by
  induction cs generalizing value with
  | nil => rfl
  | cons c cs ih =>
      rw [List.forall_mem_cons] at h
      have hdigit : digitValue? c = some (c.toNat - 48) := if_pos h.1
      rw [digitsFrom?, hdigit]
      exact ih h.2 _

theorem digits?_toDigits (number : Nat) : digits? (Nat.toDigits 10 number) = some number := by
  have hdigits : forall c, c ∈ Nat.toDigits 10 number -> c.isDigit = true :=
    fun _ h => Nat.isDigit_of_mem_toDigits (by decide) (by decide) h
  have hfrom := digitsFrom?_eq hdigits 0
  rw [Nat.ofDigitChars_ten_toDigits] at hfrom
  cases hcs : Nat.toDigits 10 number with
  | nil => exact absurd hcs Nat.toDigits_ne_nil
  | cons c cs =>
      rw [hcs] at hfrom
      exact hfrom

theorem decimal?_toString (number : Nat) : decimal? (toString number) = some number := by
  have hplus : '+' ∉ Nat.toDigits 10 number := fun h =>
    absurd (Nat.isDigit_of_mem_toDigits (by decide) (by decide) h) (by decide)
  have htext : (toString number).toList = Nat.toDigits 10 number := Nat.toList_repr
  rw [decimal?, htext]
  split
  · next rest hcs => exact absurd (hcs ▸ List.mem_cons_self) hplus
  · exact digits?_toDigits number

theorem word?_toString {number : Nat} (h : number < 2 ^ 64) :
    word? (toString number) = some number := by
  rw [word?, decimal?_toString]
  exact Option.filter_eq_some_iff.mpr ⟨rfl, decide_eq_true h⟩

end Text

end BrokerProbe
