import BrokerProbe.Text.Quoted
/-!
# How texts are spelled

What may stand between the quotes of a JSON string, and what it stands for.  A
string is a sequence of UTF-16 code units; it is a text if these are the units of
some characters.  An escape by number stands for any unit, also for one half of a
pair of surrogates.

Reading gives back what is spelled, and a string spells one sequence of units.
-/

namespace BrokerProbe

namespace Text

/-!
# Code units
-/

def codeUnits (c : Char) : List Nat :=
  if c.toNat < 0x10000 then [c.toNat]
  else [0xD800 + (c.toNat - 0x10000) / 1024, 0xDC00 + (c.toNat - 0x10000) % 1024]

def utf16 (text : String) : List Nat :=
  text.toList.flatMap codeUnits

theorem toNat_valid (c : Char) :
    c.toNat < 0xD800 ∨ 0xDFFF < c.toNat ∧ c.toNat < 0x110000 :=
  c.valid

theorem codeUnits_of_lt {c : Char} (h : c.toNat < 0x10000) : codeUnits c = [c.toNat] :=
  if_pos h

theorem codeUnits_of_ge {c : Char} (h : 0x10000 <= c.toNat) :
    exists lead trail, codeUnits c = [lead, trail] ∧ isLeadSurrogate lead = true ∧
      isTrailSurrogate trail = true ∧ joinSurrogates lead trail = c := by
  have hvalid := toNat_valid c
  refine ⟨_, _, if_neg (Nat.not_lt.mpr h), ?_, ?_, ?_⟩
  · simp [isLeadSurrogate]
    omega
  · simp [isTrailSurrogate]
    omega
  · have hvalue : 0x10000 + (0xD800 + (c.toNat - 0x10000) / 1024 - 0xD800) * 1024 +
        (0xDC00 + (c.toNat - 0x10000) % 1024 - 0xDC00) = c.toNat := by omega
    rw [joinSurrogates, hvalue, Char.ofNat_toNat]

/-!
# Spelling
-/

def smallDigits : List Char :=
  ['0', '1', '2', '3', '4', '5', '6', '7', '8', '9', 'a', 'b', 'c', 'd', 'e', 'f']

def capitalDigits : List Char :=
  ['0', '1', '2', '3', '4', '5', '6', '7', '8', '9', 'A', 'B', 'C', 'D', 'E', 'F']

def HexDigit (digit : Char) (value : Nat) : Prop :=
  smallDigits[value]? = some digit ∨ capitalDigits[value]? = some digit

def letters : List (Char × Char) :=
  [('"', '"'), ('\\', '\\'), ('/', '/'), ('b', '\x08'), ('f', '\x0c'), ('n', '\n'), ('r', '\r'),
    ('t', '\t')]

/--
Whether a text spells a sequence of code units up to a closing quote, before the
given rest.
-/
inductive Spelled : List Nat -> List Char -> List Char -> Prop where
  | closing {rest : List Char} : Spelled [] ('"' :: rest) rest
  | plain {c : Char} {units : List Nat} {text rest : List Char} (hquote : c ≠ '"')
      (hbackslash : c ≠ '\\') (hprintable : 32 <= c.toNat) (later : Spelled units text rest) :
      Spelled (codeUnits c ++ units) (c :: text) rest
  | letter {letter c : Char} {units : List Nat} {text rest : List Char}
      (hletter : (letter, c) ∈ letters) (later : Spelled units text rest) :
      Spelled (c.toNat :: units) ('\\' :: letter :: text) rest
  | number {a b c d : Char} {i j k l : Nat} {units : List Nat} {text rest : List Char}
      (ha : HexDigit a i) (hb : HexDigit b j) (hc : HexDigit c k) (hd : HexDigit d l)
      (later : Spelled units text rest) :
      Spelled ((((i * 16 + j) * 16 + k) * 16 + l) :: units)
        ('\\' :: 'u' :: a :: b :: c :: d :: text) rest

theorem HexDigit.lt {digit : Char} {value : Nat} (h : HexDigit digit value) : value < 16 := by
  rcases h with h | h
  · exact (List.getElem?_eq_some_iff.mp h).1
  · exact (List.getElem?_eq_some_iff.mp h).1

theorem HexDigit.eq {digit : Char} {value : Nat} (h : HexDigit digit value) :
    exists i : Fin 16, i.val = value ∧
      (digit = smallDigits[i] ∨ digit = capitalDigits[i]) := by
  refine ⟨⟨value, h.lt⟩, rfl, ?_⟩
  rcases h with h | h
  · exact .inl (List.getElem?_eq_some_iff.mp h).2.symm
  · exact .inr (List.getElem?_eq_some_iff.mp h).2.symm

theorem HexDigit.read {digit : Char} {value : Nat} (h : HexDigit digit value) :
    hexValue? digit = some value ∧ digit.utf8Size = 1 := by
  have hsmall : forall i : Fin 16, hexValue? smallDigits[i] = some i.val ∧
      (smallDigits[i]).utf8Size = 1 := by decide
  have hcapital : forall i : Fin 16, hexValue? capitalDigits[i] = some i.val ∧
      (capitalDigits[i]).utf8Size = 1 := by decide
  rcases h.eq with ⟨i, rfl, rfl | rfl⟩
  · exact hsmall i
  · exact hcapital i

theorem HexDigit.value_eq {digit : Char} {value other : Nat} (h : HexDigit digit value)
    (hother : HexDigit digit other) : value = other :=
  Option.some.inj (h.read.1.symm.trans hother.read.1)

theorem unescape?_of_mem_letters {letter c : Char} (h : (letter, c) ∈ letters) :
    unescape? letter = some c ∧ letter ≠ 'u' ∧ c.toNat < 0x10000 := by
  have hall : forall entry, entry ∈ letters ->
      unescape? entry.1 = some entry.2 ∧ entry.1 ≠ 'u' ∧ entry.2.toNat < 0x10000 := by decide
  exact hall _ h

/-!
# One spelling, one sequence of units
-/

theorem codeUnits_append_inj {c d : Char} {units others : List Nat}
    (h : codeUnits c ++ units = codeUnits d ++ others) : c = d ∧ units = others := by
  have hlead : forall {c : Char} {lead : Nat}, isLeadSurrogate lead = true -> c.toNat ≠ lead := by
    intro c lead hlead heq
    have hvalid := toNat_valid c
    simp only [isLeadSurrogate, Bool.and_eq_true, decide_eq_true_eq] at hlead
    omega
  rcases Nat.lt_or_ge c.toNat 0x10000 with hc | hc
  · rcases Nat.lt_or_ge d.toNat 0x10000 with hd | hd
    · rw [codeUnits_of_lt hc, codeUnits_of_lt hd] at h
      rcases List.cons.inj h with ⟨hcode, hunits⟩
      exact ⟨Char.toNat_inj.mp hcode, hunits⟩
    · rcases codeUnits_of_ge hd with ⟨lead, trail, hd, hsurrogate, _⟩
      rw [codeUnits_of_lt hc, hd] at h
      exact absurd (List.cons.inj h).1 (hlead hsurrogate)
  · rcases codeUnits_of_ge hc with ⟨lead, trail, hc, hsurrogate, _, hjoin⟩
    rcases Nat.lt_or_ge d.toNat 0x10000 with hd | hd
    · rw [codeUnits_of_lt hd, hc] at h
      exact absurd (List.cons.inj h).1.symm (hlead hsurrogate)
    · rcases codeUnits_of_ge hd with ⟨_, _, hd, _, _, hotherJoin⟩
      rw [hc, hd] at h
      simp only [List.cons_append, List.nil_append, List.cons.injEq] at h
      rcases h with ⟨rfl, rfl, hunits⟩
      exact ⟨hjoin.symm.trans hotherJoin, hunits⟩

theorem codeUnits_ne_nil (c : Char) : codeUnits c ≠ [] := by
  unfold codeUnits
  split <;> exact List.cons_ne_nil _ _

theorem eq_nil_of_codeUnits {cs : List Char} (h : [] = cs.flatMap codeUnits) : cs = [] := by
  cases cs with
  | nil => rfl
  | cons c cs => exact absurd (List.append_eq_nil_iff.mp h.symm).1 (codeUnits_ne_nil c)

theorem flatMap_codeUnits_inj {cs ds : List Char}
    (h : cs.flatMap codeUnits = ds.flatMap codeUnits) : cs = ds := by
  induction cs generalizing ds with
  | nil => exact (eq_nil_of_codeUnits h).symm
  | cons c cs ih =>
      cases ds with
      | nil => exact eq_nil_of_codeUnits h.symm
      | cons d ds =>
          rcases codeUnits_append_inj h with ⟨rfl, hrest⟩
          rw [ih hrest]

theorem utf16_injective : Function.Injective utf16 := fun _ _ h =>
  String.toList_inj.mp (flatMap_codeUnits_inj h)

theorem Spelled.unique {units others : List Nat} {text rest other : List Char}
    (h : Spelled units text rest) (hother : Spelled others text other) :
    units = others ∧ rest = other := by
  induction h generalizing others other with
  | closing =>
      cases hother with
      | closing => exact ⟨rfl, rfl⟩
      | plain hquote => exact absurd rfl hquote
  | plain hquote hbackslash _ _ ih =>
      cases hother with
      | closing => exact absurd rfl hquote
      | plain _ _ _ later =>
          rcases ih later with ⟨rfl, rfl⟩
          exact ⟨rfl, rfl⟩
      | letter => exact absurd rfl hbackslash
      | number => exact absurd rfl hbackslash
  | letter hletter _ ih =>
      rcases unescape?_of_mem_letters hletter with ⟨hc, hu, _⟩
      cases hother with
      | plain _ hbackslash => exact absurd rfl hbackslash
      | letter hletterOther later =>
          rcases unescape?_of_mem_letters hletterOther with ⟨hd, _⟩
          rcases ih later with ⟨rfl, rfl⟩
          rw [Option.some.inj (hc.symm.trans hd)]
          exact ⟨rfl, rfl⟩
      | number => exact absurd rfl hu
  | number ha hb hc hd _ ih =>
      cases hother with
      | plain _ hbackslash => exact absurd rfl hbackslash
      | letter hletter => exact absurd rfl (unescape?_of_mem_letters hletter).2.1
      | number haOther hbOther hcOther hdOther later =>
          rcases ih later with ⟨rfl, rfl⟩
          rw [ha.value_eq haOther, hb.value_eq hbOther, hc.value_eq hcOther,
            hd.value_eq hdOther]
          exact ⟨rfl, rfl⟩

/-!
# Reading back
-/

theorem surrogate_ne_toNat {value : Nat} (h : isLeadSurrogate value = true ∨
    isTrailSurrogate value = true) (c : Char) : c.toNat ≠ value := by
  intro heq
  have hvalid := toNat_valid c
  simp only [isLeadSurrogate, isTrailSurrogate, Bool.and_eq_true, decide_eq_true_eq] at h
  omega

theorem codeUnits_append_ne {trail : Nat} (htrail : isTrailSurrogate trail = true) (c : Char)
    (units others : List Nat) : codeUnits c ++ units ≠ trail :: others := by
  intro h
  rcases Nat.lt_or_ge c.toNat 0x10000 with hc | hc
  · rw [codeUnits_of_lt hc] at h
    exact surrogate_ne_toNat (.inr htrail) c (List.cons.inj h).1
  · rcases codeUnits_of_ge hc with ⟨lead, _, hc, hlead, _⟩
    rw [hc] at h
    have heq := (List.cons.inj h).1
    simp only [isLeadSurrogate, isTrailSurrogate, Bool.and_eq_true, decide_eq_true_eq]
      at hlead htrail
    omega

namespace Scan

variable {care : Care} {taken : List Char}

theorem run?_plain {c : Char} (hquote : c ≠ '"') (hbackslash : c ≠ '\\')
    (hprintable : 32 <= c.toNat) (text : List Char) :
    run? care { spot := .between, taken } (c :: text) =
      run? care { spot := .between, taken := c :: taken } text := by
  simp [run?, step, hquote, hbackslash, Nat.not_lt.mpr hprintable, take]

theorem run?_letter {letter c : Char} (h : (letter, c) ∈ letters) (text : List Char) :
    run? care { spot := .between, taken } ('\\' :: letter :: text) =
      run? care { spot := .between, taken := c :: taken } text := by
  rcases unescape?_of_mem_letters h with ⟨hc, hu, _⟩
  simp [run?, step, move, hu, hc, take]

theorem run?_word {lead : Option Nat} {a b c d : Char} {i j k l : Nat}
    (ha : HexDigit a i) (hb : HexDigit b j) (hc : HexDigit c k) (hd : HexDigit d l)
    {next : Scan}
    (hsettle : settle { spot := .number lead [a, b, c], taken } care lead
      (((i * 16 + j) * 16 + k) * 16 + l) = .more next) (text : List Char) :
    run? care { spot := .number lead [], taken } (a :: b :: c :: d :: text) =
      run? care next text := by
  have hword : hexWord? [a, b, c, d] = some (((i * 16 + j) * 16 + k) * 16 + l) := by
    simp [hexWord?, ha.read.1, hb.read.1, hc.read.1, hd.read.1]
  have hcount : byteCount [a] < 4 ∧ byteCount [a, b] < 4 ∧ byteCount [a, b, c] < 4 ∧
      ¬ byteCount [a, b, c, d] < 4 := by
    simp [byteCount, ha.read.2, hb.read.2, hc.read.2, hd.read.2]
  simp [run?, step, move, hcount, hword, hsettle]

theorem settle_toNat (scan : Scan) (c : Char) :
    scan.settle .kept none c.toNat = .more { spot := .between, taken := c :: scan.taken } := by
  have hlead : isLeadSurrogate c.toNat = false :=
    Bool.eq_false_iff.mpr fun h => surrogate_ne_toNat (.inl h) c rfl
  have htrail : isTrailSurrogate c.toNat = false :=
    Bool.eq_false_iff.mpr fun h => surrogate_ne_toNat (.inr h) c rfl
  simp [settle, hlead, htrail, take]

theorem settle_lead (scan : Scan) {lead : Nat} (h : isLeadSurrogate lead = true) :
    scan.settle .kept none lead = .more { spot := .paired lead, taken := scan.taken } := by
  have htrail : isTrailSurrogate lead = false := by
    simp only [isLeadSurrogate, isTrailSurrogate, Bool.and_eq_true, decide_eq_true_eq,
      Bool.and_eq_false_iff, decide_eq_false_iff_not] at *
    omega
  simp [settle, h, htrail, move]

theorem settle_trail (scan : Scan) (lead : Nat) {trail : Nat} (h : isTrailSurrogate trail = true) :
    scan.settle .kept (some lead) trail =
      .more { spot := .between, taken := joinSurrogates lead trail :: scan.taken } := by
  simp [settle, h, take]

theorem run?_number (text : List Char) :
    run? care { spot := .between, taken } ('\\' :: 'u' :: text) =
      run? care { spot := .number none [], taken } text := rfl

theorem run?_secondNumber (lead : Nat) (text : List Char) :
    run? care { spot := .paired lead, taken } ('\\' :: 'u' :: text) =
      run? care { spot := .number (some lead) [], taken } text := rfl

end Scan

open Scan in
theorem Spelled.exists_run?_skipped {units : List Nat} {text rest : List Char}
    (h : Spelled units text rest) (taken : List Char) :
    exists content, run? .skipped { spot := .between, taken } text = some (content, rest) := by
  induction h generalizing taken with
  | closing => exact ⟨taken.reverse, by simp [run?, step]⟩
  | plain hquote hbackslash hprintable _ ih =>
      rw [run?_plain hquote hbackslash hprintable]
      exact ih _
  | letter hletter _ ih =>
      rw [run?_letter hletter]
      exact ih _
  | number ha hb hc hd _ ih =>
      rw [run?_number, run?_word ha hb hc hd rfl]
      exact ih taken

open Scan in
/--
What spells a text is read as that text.  After the first of two surrogates the
second is due, so both places are followed at once.
-/
theorem Spelled.run?_places {units : List Nat} {text rest : List Char}
    (h : Spelled units text rest) :
    (forall cs taken, units = cs.flatMap codeUnits ->
      run? .kept { spot := .between, taken } text = some (taken.reverse ++ cs, rest)) ∧
    forall lead trail cs taken, isTrailSurrogate trail = true ->
      units = trail :: cs.flatMap codeUnits ->
      run? .kept { spot := .paired lead, taken } text =
        some (taken.reverse ++ joinSurrogates lead trail :: cs, rest) := by
  -- A unit that is a character's own, and not one of two, ends that character.
  have hown : forall {c : Char} {units : List Nat} {text rest : List Char},
      (forall cs taken, units = cs.flatMap codeUnits ->
        run? .kept { spot := .between, taken } text = some (taken.reverse ++ cs, rest)) ->
      forall cs taken, codeUnits c ++ units = cs.flatMap codeUnits ->
        run? .kept { spot := .between, taken := c :: taken } text =
          some (taken.reverse ++ cs, rest) := by
    intro c units text rest ih cs taken hunits
    cases cs with
    | nil => exact absurd (List.append_eq_nil_iff.mp hunits).1 (codeUnits_ne_nil c)
    | cons d ds =>
        rcases codeUnits_append_inj hunits with ⟨rfl, hlater⟩
        rw [ih ds (c :: taken) hlater]
        simp
  induction h with
  | closing =>
      constructor
      · intro cs taken h
        simp [run?, step, eq_nil_of_codeUnits h]
      · intro lead trail cs taken _ h
        cases h
  | plain hquote hbackslash hprintable _ ih =>
      constructor
      · intro cs taken hunits
        rw [run?_plain hquote hbackslash hprintable]
        exact hown ih.1 cs taken hunits
      · intro lead trail cs taken htrail hunits
        exact absurd hunits (codeUnits_append_ne htrail _ _ _)
  | letter hletter _ ih =>
      constructor
      · intro cs taken hunits
        rw [run?_letter hletter]
        rw [<- List.singleton_append,
          <- codeUnits_of_lt (unescape?_of_mem_letters hletter).2.2] at hunits
        exact hown ih.1 cs taken hunits
      · intro lead trail cs taken htrail hunits
        exact absurd (List.cons.inj hunits).1 (surrogate_ne_toNat (.inr htrail) _)
  | number ha hb hc hd _ ih =>
      constructor
      · intro cs taken hunits
        rw [run?_number]
        cases cs with
        | nil => cases hunits
        | cons c cs =>
            rcases Nat.lt_or_ge c.toNat 0x10000 with hsmall | hlarge
            · rw [List.flatMap_cons, codeUnits_of_lt hsmall] at hunits
              rcases List.cons.inj hunits with ⟨hvalue, hlater⟩
              rw [run?_word ha hb hc hd (hvalue ▸ settle_toNat _ c), ih.1 cs _ hlater]
              simp
            · rcases codeUnits_of_ge hlarge with ⟨lead, trail, hunit, hlead, htrail, hjoin⟩
              rw [List.flatMap_cons, hunit] at hunits
              rcases List.cons.inj hunits with ⟨rfl, hlater⟩
              rw [run?_word ha hb hc hd (settle_lead _ hlead), ih.2 _ trail cs _ htrail hlater,
                hjoin]
      · intro lead trail cs taken htrail hunits
        rcases List.cons.inj hunits with ⟨rfl, hlater⟩
        rw [run?_secondNumber, run?_word ha hb hc hd (settle_trail _ lead htrail),
          ih.1 cs _ hlater]
        simp

theorem Spelled.run?_opened {content : String} {text rest : List Char}
    (h : Spelled (utf16 content) text rest) :
    Scan.opened.run? .kept text = some (content.toList, rest) :=
  h.run?_places.1 content.toList [] rfl

end Text

end BrokerProbe
