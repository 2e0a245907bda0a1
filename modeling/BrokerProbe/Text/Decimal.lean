/-!
# Decimal numbers

A number is written with ASCII digits; leading zeros and one plus sign in
front are read as well.
-/

namespace BrokerProbe

namespace Text

def digitValue? (c : Char) : Option Nat :=
  if '0' <= c && c <= '9' then some (c.toNat - 48) else none

def digitsFrom? (value : Nat) : List Char -> Option Nat
  | [] => some value
  | c :: rest =>
      match digitValue? c with
      | some digit => digitsFrom? (10 * value + digit) rest
      | none => none

def digits? : List Char -> Option Nat
  | [] => none
  | c :: rest => digitsFrom? 0 (c :: rest)

def decimal? (text : String) : Option Nat :=
  match text.toList with
  | '+' :: rest => digits? rest
  | cs => digits? cs

/-- The number that a text writes, if it is below two to the sixty-fourth. -/
def word? (text : String) : Option Nat :=
  (decimal? text).filter fun value => value < 18446744073709551616

end Text

end BrokerProbe
