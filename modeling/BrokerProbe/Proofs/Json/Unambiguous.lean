import BrokerProbe.Proofs.Json.Grammar
/-!
# One text, one value

A text writes one value at most.  A numeral is as long as it can be, so what
follows a value has to begin with something that ends numerals: a blank, a comma
or a closing bracket.
-/

namespace BrokerProbe

namespace Json

def enders : List Char :=
  [',', ']', '}']

def Begins (allowed : List Char) (text : List Char) : Prop :=
  forall c, c ∈ text.head? -> c ∈ allowed

theorem begins_cons {allowed : List Char} {c : Char} (h : c ∈ allowed) (text : List Char) :
    Begins allowed (c :: text) := by
  intro d hd
  cases hd
  exact h

theorem brackets_subset : [']'] ⊆ enders := by decide

theorem braces_subset : ['}'] ⊆ enders := by decide

theorem Begins.mono {allowed others text : List Char} (h : Begins allowed text)
    (hsubset : allowed ⊆ others) : Begins others text :=
  fun c hc => hsubset (h c hc)

theorem not_begins_cons {allowed : List Char} {c : Char} (h : c ∉ allowed) (text : List Char) :
    ¬ Begins allowed (c :: text) :=
  fun hbegins => h (hbegins c rfl)

theorem Begins.not_blank {text : List Char} (h : Begins enders text) :
    forall c, c ∈ text.head? -> c ∉ blanks := by
  have hall : forall c, c ∈ enders -> c ∉ blanks := by simp [enders, blanks]
  exact fun c hc => hall c (h c hc)

theorem Blanks.unique {text rest other : List Char} (h : Blanks text rest)
    (hother : Blanks text other) (hrest : forall c, c ∈ rest.head? -> c ∉ blanks)
    (hotherRest : forall c, c ∈ other.head? -> c ∉ blanks) : rest = other := by
  induction h with
  | none =>
      cases hother with
      | none => rfl
      | more hblank => exact absurd hblank (hrest _ rfl)
  | more hblank _ ih =>
      cases hother with
      | none => exact absurd hblank (hotherRest _ rfl)
      | more _ later => exact ih later hrest

/-- What comes after blanks and begins with an ender begins, blanks included, with either. -/
theorem Blanks.begins {text rest : List Char} (h : Blanks text rest) (hrest : Begins enders rest) :
    Begins (blanks ++ enders) text := by
  cases h with
  | none => exact fun c hc => List.mem_append_right _ (hrest c hc)
  | more hblank => exact begins_cons (List.mem_append_left _ hblank) _

/-!
# Numerals
-/

def isNumeric (c : Char) : Bool :=
  c.isDigit || c == '-' || c == '+' || c == '.' || c == 'e' || c == 'E'

theorem Digits.isNumeric {cs : List Char} (h : Digits cs) :
    forall c, c ∈ cs -> isNumeric c = true := by
  intro c hc
  simp [Json.isNumeric, h.2 c hc]

theorem Numeral.isNumeric {numeral : List Char} (h : Numeral numeral) :
    forall c, c ∈ numeral -> isNumeric c = true := by
  rcases h with ⟨hsign, hwhole, hfraction, hexponent⟩
  simp only [List.forall_mem_append]
  refine ⟨?_, ?_, ?_, ?_⟩
  · rcases hsign with rfl | rfl <;> simp [Json.isNumeric]
  · cases hwhole with
    | zero => simp [Json.isNumeric]
    | digits _ h => exact h.isNumeric
  · cases hfraction with
    | absent => exact nofun
    | digits h => exact List.forall_mem_cons.mpr ⟨rfl, h.isNumeric⟩
  · cases hexponent with
    | absent => exact nofun
    | digits hmark hsign h =>
        rw [List.forall_mem_cons, List.forall_mem_append]
        refine ⟨?_, ?_, h.isNumeric⟩
        · rcases hmark with rfl | rfl <;> rfl
        · rcases hsign with rfl | rfl | rfl <;> simp [Json.isNumeric]

theorem Numeral.head {numeral : List Char} (h : Numeral numeral) :
    exists c cs, numeral = c :: cs ∧ (c = '-' ∨ c.isDigit = true) := by
  rcases h with ⟨hsign, hwhole, _, _⟩
  rcases hsign with rfl | rfl
  · cases hwhole with
    | zero => exact ⟨_, _, rfl, .inr rfl⟩
    | digits _ h => exact ⟨_, _, rfl, .inr (h.2 _ List.mem_cons_self)⟩
  · exact ⟨_, _, rfl, .inl rfl⟩

theorem not_isNumeric_of_begins {text : List Char} (h : Begins (blanks ++ enders) text) :
    forall c, c ∈ text.head? -> isNumeric c = false := by
  have hall : forall c, c ∈ blanks ++ enders -> isNumeric c = false := by
    simp [blanks, enders, isNumeric]
  exact fun c hc => hall c (h c hc)

theorem takeWhile_numeral {numeral rest : List Char} (h : Numeral numeral)
    (hrest : Begins (blanks ++ enders) rest) :
    (numeral ++ rest).takeWhile isNumeric = numeral := by
  rw [List.takeWhile_append_of_pos h.isNumeric]
  cases rest with
  | nil => simp
  | cons c rest => simp [not_isNumeric_of_begins hrest c rfl]

/-!
# Values
-/

def token (c : Char) : Char :=
  if c.isDigit || c == '-' then '0' else c

def opening : Json -> Char
  | null => 'n'
  | bool value => if value then 't' else 'f'
  | number _ => '0'
  | text _ => '"'
  | list _ => '['
  | object _ => '{'

theorem token_of_head {c : Char} (h : c = '-' ∨ c.isDigit = true) : token c = '0' := by
  rcases h with rfl | h
  · rfl
  · simp [token, h]

theorem Reads.head {json : Json} {text rest : List Char} (h : Reads (.value json) text rest) :
    exists c cs, text = c :: cs ∧ token c = json.opening := by
  cases h with
  | number h =>
      rcases h.head with ⟨c, cs, rfl, hc⟩
      exact ⟨c, _, rfl, token_of_head hc⟩
  | _ => exact ⟨_, _, rfl, rfl⟩

theorem not_mem_of_token {json : Json} {c : Char} (h : token c = json.opening) :
    c ∉ blanks ++ enders := by
  have hall : forall c, c ∈ blanks ++ enders -> token c ∉ ['n', 't', 'f', '0', '"', '[', '{'] := by
    simp [blanks, enders, token]
  intro hc
  refine hall c hc ?_
  rw [h]
  cases json with
  | bool value => cases value <;> decide
  | _ => simp [opening]

theorem Reads.not_blank {json : Json} {text rest : List Char} (h : Reads (.value json) text rest) :
    forall c, c ∈ text.head? -> c ∉ blanks := by
  rcases h.head with ⟨c, cs, rfl, hc⟩
  rintro _ ⟨⟩
  exact fun hblank => not_mem_of_token hc (List.mem_append_left _ hblank)

theorem Reads.items_front {items : List Json} {text rest : List Char}
    (h : Reads (.items items) text rest) :
    exists c cs, Blanks text (c :: cs) ∧ c ∉ blanks ++ enders := by
  have hpadded : forall {json : Json} {text rest : List Char}, Reads (.padded json) text rest ->
      exists c cs, Blanks text (c :: cs) ∧ c ∉ blanks ++ enders := by
    intro json text rest h
    cases h with
    | padded hbefore h =>
        rcases h.head with ⟨c, cs, rfl, hc⟩
        exact ⟨c, cs, hbefore, not_mem_of_token hc⟩
  cases h with
  | lastItem h => exact hpadded h
  | item h => exact hpadded h

theorem Reads.members_front {members : List (List Nat × Json)} {text rest : List Char}
    (h : Reads (.members members) text rest) : exists name, Blanks text ('"' :: name) := by
  cases h with
  | lastMember h =>
      cases h with
      | member hbefore => exact ⟨_, hbefore⟩
  | moreMembers h =>
      cases h with
      | member hbefore => exact ⟨_, hbefore⟩

theorem Blanks.eq_of_not_mem {text rest other : List Char} {c d : Char}
    (h : Blanks text (c :: rest)) (hother : Blanks text (d :: other)) (hc : c ∉ blanks)
    (hd : d ∉ blanks) : c = d ∧ rest = other := by
  have heq := h.unique hother (by simpa using hc) (by simpa using hd)
  exact List.cons.inj heq

theorem Reads.items_not_closed {items : List Json} {text rest other : List Char}
    (h : Reads (.items items) text rest) : ¬ Blanks text (']' :: other) := by
  intro hclosed
  rcases h.items_front with ⟨c, cs, hfront, hc⟩
  rw [List.mem_append, not_or] at hc
  rcases hfront.eq_of_not_mem hclosed hc.1 (by decide) with ⟨rfl, _⟩
  exact hc.2 (by decide)

theorem Reads.members_not_closed {members : List (List Nat × Json)} {text rest other : List Char}
    (h : Reads (.members members) text rest) : ¬ Blanks text ('}' :: other) := by
  intro hclosed
  rcases h.members_front with ⟨name, hfront⟩
  exact absurd (hfront.eq_of_not_mem hclosed (by decide) (by decide)).1 (by decide)

def SameKind : Json -> Json -> Prop
  | null, null => True
  | bool value, bool other => value = other
  | number _, number _ => True
  | text _, text _ => True
  | list _, list _ => True
  | object _, object _ => True
  | _, _ => False

theorem sameKind_of_opening_eq {json other : Json} (h : json.opening = other.opening) :
    SameKind json other := by
  cases json with
  | bool value =>
      cases value <;> cases other with
      | bool other => cases other <;> simp_all [opening, SameKind]
      | _ => simp [opening] at h
  | _ =>
      cases other with
      | bool other => cases other <;> simp [opening] at h
      | _ => first
        | trivial
        | simp [opening] at h

theorem eq_null_of_sameKind {other : Json} (h : SameKind null other) : other = null := by
  cases other with
  | null => rfl
  | _ => exact False.elim h

theorem eq_bool_of_sameKind {value : Bool} {other : Json} (h : SameKind (bool value) other) :
    other = bool value := by
  cases other with
  | bool other => exact congrArg bool (Eq.symm h)
  | _ => exact False.elim h

theorem Reads.sameKind {json other : Json} {text rest left : List Char}
    (h : Reads (.value json) text rest) (hother : Reads (.value other) text left) :
    SameKind json other := by
  rcases h.head with ⟨c, cs, rfl, hc⟩
  rcases hother.head with ⟨_, _, heq, hd⟩
  cases heq
  exact sameKind_of_opening_eq (hc.symm.trans hd)

/-- Whether a phrase, followed by what may follow it, is the only one of its sort that is read. -/
def Phrase.Unique (text rest : List Char) : Phrase -> Prop
  | .value json => forall other left, Reads (.value other) text left ->
      Begins (blanks ++ enders) rest -> Begins (blanks ++ enders) left ->
      json = other ∧ rest = left
  | .padded json => forall other left, Reads (.padded other) text left ->
      Begins enders rest -> Begins enders left -> json = other ∧ rest = left
  | .items listed => forall others left, Reads (.items others) text left ->
      Begins [']'] rest -> Begins [']'] left -> listed = others ∧ rest = left
  | .member key json => forall otherKey other left, Reads (.member otherKey other) text left ->
      Begins enders rest -> Begins enders left -> key = otherKey ∧ json = other ∧ rest = left
  | .members listed => forall others left, Reads (.members others) text left ->
      Begins ['}'] rest -> Begins ['}'] left -> listed = others ∧ rest = left

namespace Phrase

theorem unique_value {json : Json} {text rest : List Char} (h : Reads (.value json) text rest)
    (halike : forall other left, SameKind json other -> Reads (.value other) text left ->
      Begins (blanks ++ enders) rest -> Begins (blanks ++ enders) left ->
      json = other ∧ rest = left) : (value json).Unique text rest :=
  fun other left hother hrest hleft =>
    halike other left (h.sameKind hother) hother hrest hleft

theorem unique_number {numeral : List Char} (h : Numeral numeral) (rest : List Char) :
    (value (.number numeral)).Unique (numeral ++ rest) rest := by
  refine unique_value (.number h) fun other left hkind hother hrest hleft => ?_
  cases other with
  | number =>
      generalize htext : numeral ++ rest = text at hother
      cases hother with
      | number hnumeral =>
          have hnumerals := congrArg (List.takeWhile isNumeric) htext
          rw [takeWhile_numeral h hrest, takeWhile_numeral hnumeral hleft] at hnumerals
          subst hnumerals
          exact ⟨rfl, List.append_cancel_left htext⟩
  | _ => exact False.elim hkind

theorem unique_text {units : List Nat} {text rest : List Char} (h : Text.Spelled units text rest) :
    (value (.text units)).Unique ('"' :: text) rest := by
  refine unique_value (.text h) fun other left hkind hother _ _ => ?_
  cases other with
  | text =>
      cases hother with
      | text hspelled =>
          rcases h.unique hspelled with ⟨rfl, rfl⟩
          exact ⟨rfl, rfl⟩
  | _ => exact False.elim hkind

theorem unique_noItems {text rest : List Char} (h : Blanks text (']' :: rest)) :
    (value (.list [])).Unique ('[' :: text) rest := by
  refine unique_value (.noItems h) fun other left hkind hother _ _ => ?_
  cases other with
  | list =>
      cases hother with
      | noItems hblanks => exact ⟨rfl, (h.eq_of_not_mem hblanks (by decide) (by decide)).2⟩
      | list hitems => exact absurd h hitems.items_not_closed
  | _ => exact False.elim hkind

theorem unique_list {listed : List Json} {text rest : List Char}
    (h : Reads (.items listed) text (']' :: rest))
    (hunique : (items listed).Unique text (']' :: rest)) :
    (value (.list listed)).Unique ('[' :: text) rest := by
  refine unique_value (.list h) fun other left hkind hother _ _ => ?_
  cases other with
  | list =>
      cases hother with
      | noItems hblanks => exact absurd hblanks h.items_not_closed
      | list hitems =>
          rcases hunique _ _ hitems (begins_cons (by decide) _) (begins_cons (by decide) _) with
            ⟨rfl, hrest⟩
          exact ⟨rfl, (List.cons.inj hrest).2⟩
  | _ => exact False.elim hkind

theorem unique_noMembers {text rest : List Char} (h : Blanks text ('}' :: rest)) :
    (value (.object [])).Unique ('{' :: text) rest := by
  refine unique_value (.noMembers h) fun other left hkind hother _ _ => ?_
  cases other with
  | object =>
      cases hother with
      | noMembers hblanks => exact ⟨rfl, (h.eq_of_not_mem hblanks (by decide) (by decide)).2⟩
      | object hmembers => exact absurd h hmembers.members_not_closed
  | _ => exact False.elim hkind

theorem unique_object {listed : List (List Nat × Json)} {text rest : List Char}
    (h : Reads (.members listed) text ('}' :: rest))
    (hunique : (members listed).Unique text ('}' :: rest)) :
    (value (.object listed)).Unique ('{' :: text) rest := by
  refine unique_value (.object h) fun other left hkind hother _ _ => ?_
  cases other with
  | object =>
      cases hother with
      | noMembers hblanks => exact absurd hblanks h.members_not_closed
      | object hmembers =>
          rcases hunique _ _ hmembers (begins_cons (by decide) _) (begins_cons (by decide) _) with
            ⟨rfl, hrest⟩
          exact ⟨rfl, (List.cons.inj hrest).2⟩
  | _ => exact False.elim hkind

theorem unique_padded {json : Json} {text inner after rest : List Char}
    (hbefore : Blanks text inner) (h : Reads (.value json) inner after) (hafter : Blanks after rest)
    (hunique : (value json).Unique inner after) : (padded json).Unique text rest := by
  intro other left hother hrest hleft
  cases hother with
  | padded hotherBefore hother hotherAfter =>
      cases hbefore.unique hotherBefore h.not_blank hother.not_blank
      rcases hunique _ _ hother (hafter.begins hrest) (hotherAfter.begins hleft) with ⟨rfl, rfl⟩
      exact ⟨rfl, hafter.unique hotherAfter hrest.not_blank hleft.not_blank⟩

theorem unique_member {key : List Nat} {json : Json} {text name after rest tail : List Char}
    (hbefore : Blanks text ('"' :: name)) (hkey : Text.Spelled key name after)
    (hafter : Blanks after (':' :: tail)) (hunique : (padded json).Unique tail rest) :
    (member key json).Unique text rest := by
  intro otherKey other left hother hrest hleft
  cases hother with
  | member hotherBefore hotherKey hotherAfter hother =>
      cases (hbefore.eq_of_not_mem hotherBefore (by decide) (by decide)).2
      rcases hkey.unique hotherKey with ⟨rfl, rfl⟩
      cases (hafter.eq_of_not_mem hotherAfter (by decide) (by decide)).2
      rcases hunique _ _ hother hrest hleft with ⟨rfl, rfl⟩
      exact ⟨rfl, rfl, rfl⟩

theorem unique_lastItem {json : Json} {text rest : List Char}
    (hunique : (padded json).Unique text rest) : (items [json]).Unique text rest := by
  intro others left hother hrest hleft
  cases hother with
  | lastItem hother =>
      rcases hunique _ _ hother (hrest.mono brackets_subset) (hleft.mono brackets_subset) with
        ⟨rfl, rfl⟩
      exact ⟨rfl, rfl⟩
  | item hother =>
      rcases hunique _ _ hother (hrest.mono brackets_subset) (begins_cons (by decide) _) with
        ⟨_, rfl⟩
      exact absurd hrest (not_begins_cons (by decide) _)

theorem unique_item {json : Json} {listed : List Json} {text later rest : List Char}
    (hunique : (padded json).Unique text (',' :: later))
    (huniqueLater : (items listed).Unique later rest) :
    (items (json :: listed)).Unique text rest := by
  intro others left hother hrest hleft
  cases hother with
  | lastItem hother =>
      rcases hunique _ _ hother (begins_cons (by decide) _) (hleft.mono brackets_subset) with
        ⟨_, rfl⟩
      exact absurd hleft (not_begins_cons (by decide) _)
  | item hother hotherLater =>
      rcases hunique _ _ hother (begins_cons (by decide) _) (begins_cons (by decide) _) with
        ⟨rfl, hrests⟩
      cases hrests
      rcases huniqueLater _ _ hotherLater hrest hleft with ⟨rfl, rfl⟩
      exact ⟨rfl, rfl⟩

theorem unique_lastMember {key : List Nat} {json : Json} {text rest : List Char}
    (hunique : (member key json).Unique text rest) : (members [(key, json)]).Unique text rest := by
  intro others left hother hrest hleft
  cases hother with
  | lastMember hother =>
      rcases hunique _ _ _ hother (hrest.mono braces_subset) (hleft.mono braces_subset) with
        ⟨rfl, rfl, rfl⟩
      exact ⟨rfl, rfl⟩
  | moreMembers hother =>
      rcases hunique _ _ _ hother (hrest.mono braces_subset) (begins_cons (by decide) _) with
        ⟨_, _, rfl⟩
      exact absurd hrest (not_begins_cons (by decide) _)

theorem unique_moreMembers {key : List Nat} {json : Json} {listed : List (List Nat × Json)}
    {text later rest : List Char} (hunique : (member key json).Unique text (',' :: later))
    (huniqueLater : (members listed).Unique later rest) :
    (members ((key, json) :: listed)).Unique text rest := by
  intro others left hother hrest hleft
  cases hother with
  | lastMember hother =>
      rcases hunique _ _ _ hother (begins_cons (by decide) _) (hleft.mono braces_subset) with
        ⟨_, _, rfl⟩
      exact absurd hleft (not_begins_cons (by decide) _)
  | moreMembers hother hotherLater =>
      rcases hunique _ _ _ hother (begins_cons (by decide) _) (begins_cons (by decide) _) with
        ⟨rfl, rfl, hrests⟩
      cases hrests
      rcases huniqueLater _ _ hotherLater hrest hleft with ⟨rfl, rfl⟩
      exact ⟨rfl, rfl⟩

end Phrase

theorem Reads.unique {phrase : Phrase} {text rest : List Char} (h : Reads phrase text rest) :
    phrase.Unique text rest := by
  induction h with
  | null =>
      refine Phrase.unique_value .null fun other left hkind hother _ _ => ?_
      cases eq_null_of_sameKind hkind
      cases hother
      exact ⟨rfl, rfl⟩
  | true =>
      refine Phrase.unique_value .true fun other left hkind hother _ _ => ?_
      cases eq_bool_of_sameKind hkind
      cases hother
      exact ⟨rfl, rfl⟩
  | false =>
      refine Phrase.unique_value .false fun other left hkind hother _ _ => ?_
      cases eq_bool_of_sameKind hkind
      cases hother
      exact ⟨rfl, rfl⟩
  | number h => exact Phrase.unique_number h _
  | text h => exact Phrase.unique_text h
  | noItems h => exact Phrase.unique_noItems h
  | list h ih => exact Phrase.unique_list h ih
  | noMembers h => exact Phrase.unique_noMembers h
  | object h ih => exact Phrase.unique_object h ih
  | padded hbefore h hafter ih => exact Phrase.unique_padded hbefore h hafter ih
  | lastItem _ ih => exact Phrase.unique_lastItem ih
  | item _ _ ih ihLater => exact Phrase.unique_item ih ihLater
  | member hbefore hkey hafter _ ih => exact Phrase.unique_member hbefore hkey hafter ih
  | lastMember _ ih => exact Phrase.unique_lastMember ih
  | moreMembers _ _ ih ihLater => exact Phrase.unique_moreMembers ih ihLater

/-- A text writes one value at most. -/
theorem WrittenAs.unique {json other : Json} {text : String} (h : json.WrittenAs text)
    (hother : other.WrittenAs text) : json = other :=
  (Reads.unique h _ _ hother nofun nofun).1

end Json

end BrokerProbe
