import BrokerProbe.Proofs.Text.Spelling
/-!
# Reading back what was quoted

What is written between quotes spells the quoted text, so it is read back as it
was, whatever follows it.
-/

namespace BrokerProbe

namespace Text

theorem hexDigit_spec {digit : Nat} (h : digit < 16) : HexDigit (hexDigit digit) digit := by
  have hall : forall digit : Fin 16, smallDigits[digit.val]? = some (hexDigit digit) := by decide
  exact .inl (hall ⟨digit, h⟩)

theorem Spelled.escape {units : List Nat} {text rest : List Char} (h : Spelled units text rest)
    (c : Char) : Spelled (codeUnits c ++ units) (Text.escape c ++ text) rest := by
  have hletter : forall {letter c : Char}, (letter, c) ∈ letters ->
      Spelled (codeUnits c ++ units) ('\\' :: letter :: text) rest := by
    intro letter c hmem
    rw [codeUnits_of_lt (unescape?_of_mem_letters hmem).2.2]
    exact .letter hmem h
  unfold Text.escape
  split
  · exact hletter (by decide)
  · exact hletter (by decide)
  · exact hletter (by decide)
  · exact hletter (by decide)
  · exact hletter (by decide)
  · exact hletter (by decide)
  · exact hletter (by decide)
  · next hquote hbackslash _ _ _ _ _ =>
    split
    · next hcontrol =>
      have hzero : HexDigit '0' 0 := .inl rfl
      have hhigh : c.toNat / 16 < 16 := by omega
      have hlow : c.toNat % 16 < 16 := Nat.mod_lt _ (by decide)
      have hnumber := number hzero hzero (hexDigit_spec hhigh) (hexDigit_spec hlow) h
      have hvalue : ((0 * 16 + 0) * 16 + c.toNat / 16) * 16 + c.toNat % 16 = c.toNat := by omega
      rw [hvalue] at hnumber
      rw [codeUnits_of_lt (by omega)]
      exact hnumber
    · next hprintable => exact .plain hquote hbackslash (Nat.not_lt.mp hprintable) h

theorem quoteChars_append (content rest : List Char) :
    quoteChars content ++ rest = '"' :: (content.flatMap escape ++ '"' :: rest) := by
  simp [quoteChars]

theorem spelled_flatMap_escape (content rest : List Char) :
    Spelled (content.flatMap codeUnits) (content.flatMap escape ++ '"' :: rest) rest := by
  induction content with
  | nil => exact .closing
  | cons c content ih =>
      rw [List.flatMap_cons, List.flatMap_cons, List.append_assoc]
      exact ih.escape c

theorem unquote?_quoteChars (cs rest : List Char) :
    unquote? (quoteChars cs ++ rest) = some (cs, rest) := by
  rw [quoteChars_append]
  exact (spelled_flatMap_escape cs rest).run?_places.1 cs [] rfl

end Text

end BrokerProbe
