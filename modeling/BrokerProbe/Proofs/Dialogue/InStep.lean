import BrokerProbe.Dialogue
/-!
# Two dialogues in step

Two dialogues that are answered from two states may go their ways together: as
long as the states are related, the values fit each other and an onlooker who
sees a part of the exchanges sees the same.  One of them may ask more than the
other where the onlooker does not see it.
-/

namespace BrokerProbe

namespace Dialogue

variable {Question : Type} {Answer : Question -> Type}
variable {Value Other Result Final State Twin View : Type}

/-- Whether dialogues go in step when they are answered from related states. -/
def InStep (reply : (question : Question) -> State -> Answer question × State)
    (answers : (question : Question) -> Twin -> Answer question × Twin)
    (related : State -> Twin -> Prop) (seen : Exchange Question Answer -> Option View)
    (fit : Value -> Other -> Prop) (dialogue : Dialogue Question Answer Value)
    (other : Dialogue Question Answer Other) : Prop :=
  forall state twin, related state twin ->
    fit (dialogue.run reply state).1 (other.run answers twin).1 ∧
      related (dialogue.run reply state).2 (other.run answers twin).2 ∧
      (dialogue.transcript reply state).filterMap seen =
        (other.transcript answers twin).filterMap seen

variable {reply : (question : Question) -> State -> Answer question × State}
variable {answers : (question : Question) -> Twin -> Answer question × Twin}
variable {related : State -> Twin -> Prop} {seen : Exchange Question Answer -> Option View}
variable {fit : Value -> Other -> Prop} {wanted : Result -> Final -> Prop}
variable {dialogue : Dialogue Question Answer Value} {other : Dialogue Question Answer Other}

theorem InStep.done {value : Value} {result : Other} (h : fit value result) :
    InStep reply answers related seen fit (done value) (done result) :=
  fun _ _ hrelated => ⟨h, hrelated, rfl⟩

theorem InStep.request {question following : Question}
    {fit : Answer question -> Answer following -> Prop}
    (h : forall state twin, related state twin ->
      fit (reply question state).1 (answers following twin).1 ∧
        related (reply question state).2 (answers following twin).2 ∧
        seen ⟨question, (reply question state).1⟩ = seen ⟨following, (answers following twin).1⟩) :
    InStep reply answers related seen fit (Dialogue.request question)
      (Dialogue.request following) := by
  intro state twin hrelated
  rcases h state twin hrelated with ⟨hfit, hafter, hseen⟩
  refine ⟨hfit, hafter, ?_⟩
  simp only [Dialogue.request, transcript, List.filterMap_cons, hseen]

theorem InStep.bind {next : Value -> Dialogue Question Answer Result}
    {following : Other -> Dialogue Question Answer Final}
    (h : InStep reply answers related seen fit dialogue other)
    (hnext : forall value result, fit value result ->
      InStep reply answers related seen wanted (next value) (following result)) :
    InStep reply answers related seen wanted (dialogue >>= next) (other >>= following) := by
  intro state twin hrelated
  rcases h state twin hrelated with ⟨hfit, hafter, hseen⟩
  rcases hnext _ _ hfit _ _ hafter with ⟨hwanted, hend, hlater⟩
  rw [run_bind, run_bind, transcript_bind, transcript_bind, List.filterMap_append,
    List.filterMap_append, hseen, hlater]
  exact ⟨hwanted, hend, rfl⟩

theorem InStep.foldlM {Item : Type} {step : Value -> Item -> Dialogue Question Answer Value}
    {following : Other -> Item -> Dialogue Question Answer Other}
    (hstep : forall value result item, fit value result ->
      InStep reply answers related seen fit (step value item) (following result item))
    {value : Value} {result : Other} (hfit : fit value result) (items : List Item) :
    InStep reply answers related seen fit (items.foldlM step value)
      (items.foldlM following result) := by
  induction items generalizing value result with
  | nil => exact .done hfit
  | cons item rest ih =>
      rw [List.foldlM_cons, List.foldlM_cons]
      exact (hstep value result item hfit).bind fun _ _ => ih

theorem InStep.ask_left {question : Question} (good : Answer question -> Prop)
    {next : Answer question -> Dialogue Question Answer Value}
    (hask : forall state twin, related state twin ->
      good (reply question state).1 ∧ related (reply question state).2 twin)
    (hseen : forall answer, seen ⟨question, answer⟩ = none)
    (h : forall answer, good answer -> InStep reply answers related seen fit (next answer) other) :
    InStep reply answers related seen fit (Dialogue.request question >>= next) other := by
  intro state twin hrelated
  rcases hask state twin hrelated with ⟨hgood, hafter⟩
  rcases h _ hgood _ _ hafter with ⟨hfit, hend, hlater⟩
  exact ⟨hfit, hend, (List.filterMap_cons_none (hseen _)).trans hlater⟩

theorem InStep.ask_right {question : Question} (good : Answer question -> Prop)
    {next : Answer question -> Dialogue Question Answer Other}
    (hask : forall state twin, related state twin ->
      good (answers question twin).1 ∧ related state (answers question twin).2)
    (hseen : forall answer, seen ⟨question, answer⟩ = none)
    (h : forall answer, good answer ->
      InStep reply answers related seen fit dialogue (next answer)) :
    InStep reply answers related seen fit dialogue (Dialogue.request question >>= next) := by
  intro state twin hrelated
  rcases hask state twin hrelated with ⟨hgood, hafter⟩
  rcases h _ hgood _ _ hafter with ⟨hfit, hend, hlater⟩
  exact ⟨hfit, hend, hlater.trans (List.filterMap_cons_none (hseen _)).symm⟩

end Dialogue

end BrokerProbe
