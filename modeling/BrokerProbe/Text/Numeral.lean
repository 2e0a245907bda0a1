import BrokerProbe.Number.Precision
/-!
# Numerals

Numbers as JSON writes them, read one character at a time: where a reader stands
in the numeral, and how large the number is as far as that decides whether a
double can hold it.
-/

namespace BrokerProbe

namespace Text

inductive NumeralSpot where
  | sign
  | zero
  | whole
  | point
  | fraction
  | exponent
  | exponentSign
  | exponentDigits
  deriving DecidableEq, Repr

inductive NumeralStep where
  | more (spot : NumeralSpot)
  | ended
  | malformed
  deriving DecidableEq, Repr

def isDigit (c : Char) : Bool :=
  '0' <= c && c <= '9'

def isExponentMark (c : Char) : Bool :=
  c == 'e' || c == 'E'

namespace NumeralSpot

def first? (c : Char) : Option NumeralSpot :=
  if c = '-' then some sign
  else if c = '0' then some zero
  else if isDigit c then some whole
  else none

def isComplete : NumeralSpot -> Bool
  | zero => true
  | whole => true
  | fraction => true
  | exponentDigits => true
  | _ => false

def step (spot : NumeralSpot) (c : Char) : NumeralStep :=
  match spot with
  | sign =>
      if c = '0' then .more zero
      else if isDigit c then .more whole
      else .malformed
  | zero =>
      if isDigit c then .malformed
      else if c = '.' then .more point
      else if isExponentMark c then .more exponent
      else .ended
  | whole =>
      if isDigit c then .more whole
      else if c = '.' then .more point
      else if isExponentMark c then .more exponent
      else .ended
  | point => if isDigit c then .more fraction else .malformed
  | fraction =>
      if isDigit c then .more fraction
      else if isExponentMark c then .more exponent
      else .ended
  | exponent =>
      if c = '+' || c = '-' then .more exponentSign
      else if isDigit c then .more exponentDigits
      else .malformed
  | exponentSign => if isDigit c then .more exponentDigits else .malformed
  | exponentDigits => if isDigit c then .more exponentDigits else .ended

end NumeralSpot

/--
The size of a number: a significand of at most sixty-four bits, the power of ten
that its digits imply, and the exponent that is written.  Digits for which the
significand has no room count by their place only.
-/
structure Magnitude where
  significand : Nat
  scale : Int
  full : Bool
  shrinks : Bool
  exponent : Nat
  deriving DecidableEq, Repr

namespace Magnitude

def zero : Magnitude :=
  { significand := 0, scale := 0, full := false, shrinks := false, exponent := 0 }

def limit : Nat := 18446744073709551616

/-- Takes in a digit before (`place` zero) or after (`place` minus one) the point. -/
def digit (magnitude : Magnitude) (value : Nat) (fractional : Bool) : Magnitude :=
  let longer := 10 * magnitude.significand + value
  if !magnitude.full && longer < limit then
    { magnitude with
      significand := longer
      scale := if fractional then magnitude.scale - 1 else magnitude.scale }
  else
    { magnitude with
      full := true
      scale := if fractional then magnitude.scale else magnitude.scale + 1 }

def take (magnitude : Magnitude) (spot : NumeralSpot) (c : Char) : Magnitude :=
  let value := c.toNat - 48
  match spot with
  | .whole => magnitude.digit value false
  | .point => { magnitude with full := false }
  | .fraction => magnitude.digit value true
  | .exponentSign => { magnitude with shrinks := c == '-' }
  | .exponentDigits => { magnitude with exponent := 10 * magnitude.exponent + value }
  | _ => magnitude

def power (magnitude : Magnitude) : Int :=
  if magnitude.shrinks then magnitude.scale - magnitude.exponent
  else magnitude.scale + magnitude.exponent

def overflows (magnitude : Magnitude) : Bool :=
  let power := magnitude.power
  if magnitude.significand = 0 || power < 0 then false
  else if power > 308 then true
  else
    Number.doubleOverflow <=
      Number.toPrecision Number.doubleBits magnitude.significand *
        Number.toPrecision Number.doubleBits (Nat.pow 10 power.toNat)

end Magnitude

end Text

end BrokerProbe
