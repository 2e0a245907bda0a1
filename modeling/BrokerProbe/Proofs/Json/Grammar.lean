import BrokerProbe.Proofs.Text.Quoted
/-!
# JSON texts

Values, and how they stand in a text.  Blanks are allowed around every token, keys
may repeat, and an object keeps its members in their order.  What a phrase of a
text means is told by `Reads`: the phrase stands at the front of one text and
leaves another.
-/

namespace BrokerProbe

inductive Json where
  | null
  | bool (value : Bool)
  | number (numeral : List Char)
  | text (units : List Nat)
  | list (items : List Json)
  | object (members : List (List Nat × Json))

namespace Json

def ofText (content : String) : Json :=
  .text (Text.utf16 content)

/-!
# Blanks and numerals
-/

def blanks : List Char :=
  [' ', '\t', '\n', '\r']

inductive Blanks : List Char -> List Char -> Prop where
  | none {rest : List Char} : Blanks rest rest
  | more {c : Char} {text rest : List Char} (hblank : c ∈ blanks) (later : Blanks text rest) :
      Blanks (c :: text) rest

def Digits (cs : List Char) : Prop :=
  cs ≠ [] ∧ forall c, c ∈ cs -> c.isDigit = true

inductive Whole : List Char -> Prop where
  | zero : Whole ['0']
  | digits {c : Char} {cs : List Char} (hfirst : c ≠ '0') (h : Digits (c :: cs)) : Whole (c :: cs)

inductive Fraction : List Char -> Prop where
  | absent : Fraction []
  | digits {cs : List Char} (h : Digits cs) : Fraction ('.' :: cs)

inductive Exponent : List Char -> Prop where
  | absent : Exponent []
  | digits {mark : Char} {sign cs : List Char} (hmark : mark = 'e' ∨ mark = 'E')
      (hsign : sign = [] ∨ sign = ['+'] ∨ sign = ['-']) (h : Digits cs) :
      Exponent (mark :: (sign ++ cs))

inductive Numeral : List Char -> Prop where
  | mk {sign whole fraction exponent : List Char} (hsign : sign = [] ∨ sign = ['-'])
      (hwhole : Whole whole) (hfraction : Fraction fraction) (hexponent : Exponent exponent) :
      Numeral (sign ++ (whole ++ (fraction ++ exponent)))

/-!
# Phrases
-/

/--
What a text is made of: a value, bare or with blanks around it, the items of a
list, a member of an object, and the members.
-/
inductive Phrase where
  | value (json : Json)
  | padded (json : Json)
  | items (items : List Json)
  | member (key : List Nat) (json : Json)
  | members (members : List (List Nat × Json))

/-- Whether a phrase stands at the front of a text, before the given rest. -/
inductive Reads : Phrase -> List Char -> List Char -> Prop where
  | null {rest : List Char} : Reads (.value .null) ('n' :: 'u' :: 'l' :: 'l' :: rest) rest
  | true {rest : List Char} : Reads (.value (.bool true)) ('t' :: 'r' :: 'u' :: 'e' :: rest) rest
  | false {rest : List Char} :
      Reads (.value (.bool false)) ('f' :: 'a' :: 'l' :: 's' :: 'e' :: rest) rest
  | number {numeral rest : List Char} (h : Numeral numeral) :
      Reads (.value (.number numeral)) (numeral ++ rest) rest
  | text {units : List Nat} {text rest : List Char} (h : Text.Spelled units text rest) :
      Reads (.value (.text units)) ('"' :: text) rest
  | noItems {text rest : List Char} (h : Blanks text (']' :: rest)) :
      Reads (.value (.list [])) ('[' :: text) rest
  | list {items : List Json} {text rest : List Char} (h : Reads (.items items) text (']' :: rest)) :
      Reads (.value (.list items)) ('[' :: text) rest
  | noMembers {text rest : List Char} (h : Blanks text ('}' :: rest)) :
      Reads (.value (.object [])) ('{' :: text) rest
  | object {members : List (List Nat × Json)} {text rest : List Char}
      (h : Reads (.members members) text ('}' :: rest)) :
      Reads (.value (.object members)) ('{' :: text) rest
  | padded {json : Json} {text inner after rest : List Char} (hbefore : Blanks text inner)
      (h : Reads (.value json) inner after) (hafter : Blanks after rest) :
      Reads (.padded json) text rest
  | lastItem {json : Json} {text rest : List Char} (h : Reads (.padded json) text rest) :
      Reads (.items [json]) text rest
  | item {json : Json} {items : List Json} {text later rest : List Char}
      (h : Reads (.padded json) text (',' :: later)) (hlater : Reads (.items items) later rest) :
      Reads (.items (json :: items)) text rest
  | member {key : List Nat} {json : Json} {text name after value rest : List Char}
      (hbefore : Blanks text ('"' :: name)) (hkey : Text.Spelled key name after)
      (hafter : Blanks after (':' :: value)) (h : Reads (.padded json) value rest) :
      Reads (.member key json) text rest
  | lastMember {key : List Nat} {json : Json} {text rest : List Char}
      (h : Reads (.member key json) text rest) : Reads (.members [(key, json)]) text rest
  | moreMembers {key : List Nat} {json : Json} {members : List (List Nat × Json)}
      {text later rest : List Char} (h : Reads (.member key json) text (',' :: later))
      (hlater : Reads (.members members) later rest) :
      Reads (.members ((key, json) :: members)) text rest

def WrittenAs (json : Json) (text : String) : Prop :=
  Reads (.padded json) text.toList []

/-!
# Writing without blanks
-/

theorem reads_quoteChars (content : String) (rest : List Char) :
    Reads (.value (.ofText content)) (Text.quoteChars content.toList ++ rest) rest := by
  rw [Text.quoteChars_append]
  exact .text (Text.spelled_flatMap_escape _ _)

theorem reads_member (key : String) {json : Json} {value rest : List Char}
    (h : Reads (.value json) (value ++ rest) rest) :
    Reads (.member (Text.utf16 key) json)
      (Text.quoteChars key.toList ++ ':' :: value ++ rest) rest := by
  rw [List.append_assoc, Text.quoteChars_append]
  exact .member .none (Text.spelled_flatMap_escape _ _) .none (.padded .none h .none)

section Members

variable {Item : Type} (key : Item -> String) (json : Item -> Json) (value : Item -> List Char)

theorem reads_members (hvalue : forall item rest,
      Reads (.value (json item)) (value item ++ rest) rest)
    (first : Item) (items : List Item) (rest : List Char) :
    Reads (.members ((first :: items).map fun item => (Text.utf16 (key item), json item)))
      (List.intercalate [',']
        ((first :: items).map fun item => Text.quoteChars (key item).toList ++ ':' :: value item) ++
          rest) rest := by
  induction items generalizing first with
  | nil =>
      simpa using Reads.lastMember (reads_member (key first) (hvalue first rest))
  | cons second items ih =>
      have hfirst := fun later => reads_member (key first) (hvalue first (',' :: later))
      have hall := Reads.moreMembers (hfirst _) (ih second)
      simpa [List.intercalate_cons_cons] using hall

theorem writtenAs_object (hvalue : forall item rest,
      Reads (.value (json item)) (value item ++ rest) rest) (first : Item) (items : List Item) :
    (object ((first :: items).map fun item => (Text.utf16 (key item), json item))).WrittenAs
      (String.ofList ('{' :: List.intercalate [',']
        ((first :: items).map fun item => Text.quoteChars (key item).toList ++ ':' :: value item) ++
          ['}'])) := by
  rw [WrittenAs, String.toList_ofList]
  exact .padded .none (.object (reads_members key json value hvalue first items ['}'])) .none

end Members

end Json

end BrokerProbe
