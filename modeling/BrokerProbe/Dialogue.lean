/-!
# Dialogues

A dialogue is a computation that asks its surroundings questions and goes on
with the answers.  What is asked, and in which order, is data: one dialogue can
be answered from a state, be answered one question at a time among others, or
be read off as a transcript.
-/

namespace BrokerProbe

/-- A computation of a value that may first ask questions. -/
inductive Dialogue (Question : Type) (Answer : Question -> Type) (Value : Type) where
  | done (value : Value)
  | ask (question : Question)
      (next : Answer question -> Dialogue Question Answer Value)

namespace Dialogue

variable {Question : Type} {Answer : Question -> Type}
variable {Value Result State : Type}

def request (question : Question) : Dialogue Question Answer (Answer question) :=
  ask question done

def bind (dialogue : Dialogue Question Answer Value)
    (next : Value -> Dialogue Question Answer Result) :
    Dialogue Question Answer Result :=
  match dialogue with
  | done value => next value
  | ask question rest => ask question fun answer => (rest answer).bind next

instance : Monad (Dialogue Question Answer) where
  pure := done
  bind := bind

@[simp] theorem pure_eq (value : Value) :
    (pure value : Dialogue Question Answer Value) = done value := rfl

@[simp] theorem done_bind
    (value : Value) (next : Value -> Dialogue Question Answer Result) :
    done value >>= next = next value := rfl

@[simp] theorem ask_bind
    (question : Question) (rest : Answer question -> Dialogue Question Answer Value)
    (next : Value -> Dialogue Question Answer Result) :
    ask question rest >>= next = ask question fun answer => rest answer >>= next := rfl

/-!
# Answering from a state
-/

def run (reply : (question : Question) -> State -> Answer question × State) :
    Dialogue Question Answer Value -> State -> Value × State
  | done value, state => (value, state)
  | ask question next, state =>
      let given := reply question state
      (next given.1).run reply given.2

theorem run_bind
    (reply : (question : Question) -> State -> Answer question × State)
    (dialogue : Dialogue Question Answer Value)
    (next : Value -> Dialogue Question Answer Result) (state : State) :
    (dialogue >>= next).run reply state =
      (next (dialogue.run reply state).1).run reply (dialogue.run reply state).2 := by
  induction dialogue generalizing state with
  | done value => rfl
  | ask question rest ih => exact ih _ _

/-!
# Transcripts
-/

structure Exchange (Question : Type) (Answer : Question -> Type) where
  question : Question
  answer : Answer question

def transcript (reply : (question : Question) -> State -> Answer question × State) :
    Dialogue Question Answer Value -> State -> List (Exchange Question Answer)
  | done _, _ => []
  | ask question next, state =>
      let given := reply question state
      { question, answer := given.1 } :: (next given.1).transcript reply given.2

theorem transcript_bind
    (reply : (question : Question) -> State -> Answer question × State)
    (dialogue : Dialogue Question Answer Value)
    (next : Value -> Dialogue Question Answer Result) (state : State) :
    (dialogue >>= next).transcript reply state =
      dialogue.transcript reply state ++
        (next (dialogue.run reply state).1).transcript reply
          (dialogue.run reply state).2 := by
  induction dialogue generalizing state with
  | done value => rfl
  | ask question rest ih => exact congrArg _ (ih _ _)

/-!
# Asking as part of a larger dialogue
-/

variable {Wider : Type} {WiderAnswer : Wider -> Type}

/-- Asks the same questions in the words of a larger dialogue. -/
def widen (word : Question -> Wider)
    (back : (question : Question) -> WiderAnswer (word question) -> Answer question) :
    Dialogue Question Answer Value -> Dialogue Wider WiderAnswer Value
  | done value => done value
  | ask question next =>
      ask (word question) fun answer => (next (back question answer)).widen word back

end Dialogue

end BrokerProbe
