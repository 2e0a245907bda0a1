/-!
# Rounding to a number of significant bits

Binary floating point keeps a fixed number of significant bits and rounds what
does not fit to the nearest neighbour, a tie to the even one.  For natural
numbers this is exact arithmetic, which is how it is done here.
-/

namespace BrokerProbe

namespace Number

def doubleBits : Nat := 53

/-- The nearest multiple of a unit; halfway between two, the even multiple. -/
def nearestMultiple (unit value : Nat) : Nat :=
  let below := value / unit
  let rest := value % unit
  let up := unit < 2 * rest || (2 * rest == unit && below % 2 == 1)
  (if up then below + 1 else below) * unit

def toPrecision (bits value : Nat) : Nat :=
  nearestMultiple (1 <<< (value.log2 + 1 - bits)) value

/-- The natural numbers from here on round to infinity as doubles. -/
def doubleOverflow : Nat := (1 <<< 1024) - (1 <<< 970)

theorem nearestMultiple_one (value : Nat) : nearestMultiple 1 value = value := by
  simp [nearestMultiple, Nat.mod_one]

theorem nearestMultiple_zero (unit : Nat) : nearestMultiple unit 0 = 0 := by
  simp [nearestMultiple]

theorem toPrecision_of_log2_lt {bits value : Nat} (h : value.log2 < bits) :
    toPrecision bits value = value := by
  have hshift : value.log2 + 1 - bits = 0 := by omega
  unfold toPrecision
  rw [hshift]
  exact nearestMultiple_one value

end Number

end BrokerProbe
