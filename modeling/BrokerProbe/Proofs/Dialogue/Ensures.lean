import BrokerProbe.Proofs.Dialogue.Conversation
/-!
# What a dialogue keeps to

A dialogue that is handed only good things may have to ask of these alone, and
come to a good value.  Who answers does not matter, and nothing is said of
answers that are no good.
-/

namespace BrokerProbe

namespace Dialogue

variable {Question : Type} {Answer : Question -> Type}
variable {Value Result : Type}

/-- Whether good answers lead to questions of a kind alone, and to a good value in the end. -/
def Ensures (kind : Question -> Prop) (good : Exchange Question Answer -> Prop)
    (fit : Value -> Prop) : Dialogue Question Answer Value -> Prop
  | done value => fit value
  | ask question next =>
      kind question ∧
        forall answer, good { question, answer } -> (next answer).Ensures kind good fit

variable {kind : Question -> Prop} {good : Exchange Question Answer -> Prop}
variable {fit : Value -> Prop} {wanted : Result -> Prop}
variable {dialogue : Dialogue Question Answer Value} {question : Question}

theorem Ensures.bind {next : Value -> Dialogue Question Answer Result}
    (h : dialogue.Ensures kind good fit)
    (hnext : forall value, fit value -> (next value).Ensures kind good wanted) :
    (dialogue >>= next).Ensures kind good wanted := by
  induction dialogue with
  | done value => exact hnext value h
  | ask question rest ih => exact ⟨h.1, fun answer hgood => ih answer (h.2 answer hgood)⟩

theorem Ensures.request_bind {following : Answer question -> Dialogue Question Answer Value}
    (hkind : kind question)
    (h : forall answer, good { question, answer } ->
      (following answer).Ensures kind good fit) :
    (Dialogue.request question >>= following).Ensures kind good fit :=
  ⟨hkind, h⟩

theorem Ensures.foldlM {Item : Type} {step : Value -> Item -> Dialogue Question Answer Value}
    (hstep : forall value item, fit value -> (step value item).Ensures kind good fit)
    {value : Value} (hvalue : fit value) (items : List Item) :
    (items.foldlM step value).Ensures kind good fit := by
  induction items generalizing value with
  | nil => exact hvalue
  | cons item rest ih =>
      rw [List.foldlM_cons]
      exact (hstep value item hvalue).bind fun _ => ih

theorem Asks.ensures (h : dialogue.Asks kind) :
    dialogue.Ensures kind good fun _ => True := by
  induction dialogue with
  | done value => trivial
  | ask question rest ih => exact ⟨h.1, fun answer _ => ih answer (h.2 answer)⟩

theorem Ensures.widen {Wider : Type} {WiderAnswer : Wider -> Type} {word : Question -> Wider}
    {back : (question : Question) -> WiderAnswer (word question) -> Answer question}
    {wider : Wider -> Prop} {better : Exchange Wider WiderAnswer -> Prop}
    (hword : forall question, kind question -> wider (word question))
    (hback : forall question answer, better ⟨word question, answer⟩ ->
      good ⟨question, back question answer⟩)
    (h : dialogue.Ensures kind good fit) :
    (dialogue.widen word back).Ensures wider better fit := by
  induction dialogue with
  | done value => exact h
  | ask question rest ih =>
      exact ⟨hword question h.1, fun answer hbetter =>
        ih _ (h.2 _ (hback question answer hbetter))⟩

end Dialogue

end BrokerProbe
