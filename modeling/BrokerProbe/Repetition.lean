/-!
# Repetition

The first item of a list that was there before.
-/

namespace BrokerProbe

variable {α : Type} [BEq α]

/-- The first item that is among the ones before it, given what came before the list. -/
def firstRepeatAfter (before : List α) : List α -> Option α
  | [] => none
  | item :: rest =>
      if before.contains item then some item
      else firstRepeatAfter (item :: before) rest

def firstRepeat? (items : List α) : Option α :=
  firstRepeatAfter [] items

theorem firstRepeatAfter_eq_none_iff [LawfulBEq α] (before items : List α) :
    firstRepeatAfter before items = none ↔
      items.Nodup ∧ forall item, item ∈ items -> item ∉ before := by
  induction items generalizing before with
  | nil => simp [firstRepeatAfter]
  | cons item rest ih =>
      by_cases h : item ∈ before
      · simp [firstRepeatAfter, h]
      · simp only [firstRepeatAfter, List.contains_iff_mem, h, if_false, ih, List.nodup_cons,
          List.mem_cons]
        grind

theorem firstRepeat?_eq_none_iff [LawfulBEq α] (items : List α) :
    firstRepeat? items = none ↔ items.Nodup := by
  simp [firstRepeat?, firstRepeatAfter_eq_none_iff]

end BrokerProbe
