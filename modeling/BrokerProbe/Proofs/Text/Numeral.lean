import BrokerProbe.Proofs.Json.Unambiguous
import BrokerProbe.Text.Numeral
/-!
# Numerals are read to their end

The spots inside a numeral follow its grammar: the whole part, a fraction and an
exponent lead from one complete spot to the next, and at a complete spot a numeral
ends with the first character that is not its own.
-/

namespace BrokerProbe

namespace Text

namespace NumeralSpot

def run? (spot : NumeralSpot) : List Char -> Option NumeralSpot
  | [] => some spot
  | c :: rest =>
      match spot.step c with
      | .more next => next.run? rest
      | .ended => none
      | .malformed => none

theorem run?_append {spot next : NumeralSpot} {cs : List Char} (h : spot.run? cs = some next)
    (rest : List Char) : spot.run? (cs ++ rest) = next.run? rest := by
  induction cs generalizing spot with
  | nil =>
      cases h
      rfl
  | cons c cs ih =>
      rw [List.cons_append, run?]
      rw [run?] at h
      split at h
      · exact ih h
      · cases h
      · cases h

/-- A spot that one more digit does not leave. -/
def Stays (spot : NumeralSpot) : Prop :=
  forall c, c.isDigit = true -> spot.step c = .more spot

theorem ne_of_isDigit {c d : Char} (hc : c.isDigit = true) (hd : d.isDigit = false) : c ≠ d := by
  rintro rfl
  rw [hc] at hd
  cases hd

theorem stays_whole : Stays .whole := fun _ h => if_pos h

theorem stays_fraction : Stays .fraction := fun _ h => if_pos h

theorem stays_exponentDigits : Stays .exponentDigits := fun _ h => if_pos h

theorem Stays.run? {spot : NumeralSpot} (h : spot.Stays) {cs : List Char}
    (hdigits : forall c, c ∈ cs -> c.isDigit = true) : spot.run? cs = some spot := by
  induction cs with
  | nil => rfl
  | cons c cs ih =>
      rw [List.forall_mem_cons] at hdigits
      rw [NumeralSpot.run?, h c hdigits.1]
      exact ih hdigits.2

theorem run?_digits {spot next : NumeralSpot} {cs : List Char}
    (hstep : forall c, c.isDigit = true -> spot.step c = .more next) (hnext : next.Stays)
    (h : Json.Digits cs) : spot.run? cs = some next := by
  rcases h with ⟨hne, hdigits⟩
  cases cs with
  | nil => exact absurd rfl hne
  | cons c cs =>
      rw [List.forall_mem_cons] at hdigits
      rw [run?, hstep c hdigits.1]
      exact hnext.run? hdigits.2

theorem run?_whole {cs : List Char} (h : Json.Whole cs) :
    exists next, (next = zero ∨ next = whole) ∧ sign.run? cs = some next ∧
      exists c rest spot, cs = c :: rest ∧ first? c = some spot ∧ spot.run? rest = some next := by
  cases h with
  | zero => exact ⟨zero, .inl rfl, rfl, '0', [], zero, rfl, rfl, rfl⟩
  | @digits c cs hfirst h =>
      have hall := List.forall_mem_cons.mp h.2
      have hrest := stays_whole.run? hall.2
      have hminus := ne_of_isDigit hall.1 (d := '-') rfl
      have hdigit : isDigit c = true := hall.1
      refine ⟨whole, .inr rfl, ?_, c, cs, whole, rfl, ?_, hrest⟩
      · rw [run?, step, if_neg hfirst, if_pos hdigit]
        exact hrest
      · rw [first?, if_neg hminus, if_neg hfirst, if_pos hdigit]

theorem run?_fraction {spot : NumeralSpot} (hspot : spot = zero ∨ spot = whole) {cs : List Char}
    (h : Json.Fraction cs) :
    exists next, (next = zero ∨ next = whole ∨ next = fraction) ∧ spot.run? cs = some next := by
  cases h with
  | absent => exact ⟨spot, hspot.imp_right .inl, rfl⟩
  | @digits cs h =>
      refine ⟨fraction, .inr (.inr rfl), ?_⟩
      have hpoint : point.run? cs = some fraction :=
        run?_digits (fun _ h => if_pos h) stays_fraction h
      rcases hspot with rfl | rfl <;> exact hpoint

theorem run?_exponent {spot : NumeralSpot} (hspot : spot = zero ∨ spot = whole ∨ spot = fraction)
    {cs : List Char} (h : Json.Exponent cs) :
    exists next, next.isComplete = true ∧ spot.run? cs = some next := by
  cases h with
  | absent => exact ⟨spot, by rcases hspot with rfl | rfl | rfl <;> rfl, rfl⟩
  | @digits mark sign cs hmark hsign h =>
      refine ⟨exponentDigits, rfl, ?_⟩
      have hmarked : spot.run? (mark :: (sign ++ cs)) = exponent.run? (sign ++ cs) := by
        rcases hspot with rfl | rfl | rfl <;> rcases hmark with rfl | rfl <;> rfl
      rw [hmarked]
      rcases hsign with rfl | rfl | rfl
      · refine run?_digits (fun c hc => ?_) stays_exponentDigits h
        have hplus := ne_of_isDigit hc (d := '+') rfl
        have hminus := ne_of_isDigit hc (d := '-') rfl
        have hdigit : isDigit c = true := hc
        simp [step, hplus, hminus, hdigit]
      · have hsigned : exponentSign.run? cs = some exponentDigits :=
          run?_digits (fun _ h => if_pos h) stays_exponentDigits h
        exact hsigned
      · have hsigned : exponentSign.run? cs = some exponentDigits :=
          run?_digits (fun _ h => if_pos h) stays_exponentDigits h
        exact hsigned

theorem exists_run?_numeral {numeral : List Char} (h : Json.Numeral numeral) :
    exists c rest spot last, numeral = c :: rest ∧ first? c = some spot ∧
      spot.run? rest = some last ∧ last.isComplete = true := by
  cases h with
  | @mk signs wholes fractions exponents hsign hwhole hfraction hexponent =>
      rcases run?_whole hwhole with ⟨next, hnext, hsigned, c, cs, spot, rfl, hfirst, hbare⟩
      rcases run?_fraction hnext hfraction with ⟨later, hlater, hrunFraction⟩
      rcases run?_exponent hlater hexponent with ⟨last, hlast, hrunExponent⟩
      rcases hsign with rfl | rfl
      · refine ⟨c, cs ++ (fractions ++ exponents), spot, last, rfl, hfirst, ?_, hlast⟩
        rw [run?_append hbare, run?_append hrunFraction, hrunExponent]
      · refine ⟨'-', c :: cs ++ (fractions ++ exponents), sign, last, rfl, rfl, ?_, hlast⟩
        rw [run?_append hsigned, run?_append hrunFraction, hrunExponent]

theorem step_of_isComplete {spot : NumeralSpot} (h : spot.isComplete = true) {c : Char}
    (hc : c ∈ Json.blanks ++ Json.enders) : spot.step c = .ended := by
  have hall : forall c, c ∈ Json.blanks ++ Json.enders ->
      isDigit c = false ∧ isExponentMark c = false ∧ c ≠ '.' := by
    simp [Json.blanks, Json.enders, isDigit, isExponentMark]
  rcases hall c hc with ⟨hdigit, hmark, hpoint⟩
  cases spot with
  | zero => simp [step, hdigit, hmark, hpoint]
  | whole => simp [step, hdigit, hmark, hpoint]
  | fraction => simp [step, hdigit, hmark]
  | exponentDigits => simp [step, hdigit]
  | _ => cases h

end NumeralSpot

end Text

end BrokerProbe
