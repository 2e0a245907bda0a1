import BrokerProbe.Dialogue
/-!
# Conversations

A conversation is one way that a dialogue can go: questions, with some answers,
up to a value.  What holds of every conversation holds whoever answers, also
when the answers come from several parties that take turns.
-/

namespace BrokerProbe

namespace Dialogue

variable {Question : Type} {Answer : Question -> Type}
variable {Value Result State : Type}

/-- Whether a dialogue can go through these exchanges to a value. -/
inductive Conversation :
    Dialogue Question Answer Value -> List (Exchange Question Answer) -> Value -> Prop where
  | done (value : Value) : Conversation (.done value) [] value
  | ask {question : Question} {next : Answer question -> Dialogue Question Answer Value}
      {answer : Answer question} {exchanges : List (Exchange Question Answer)} {value : Value}
      (h : Conversation (next answer) exchanges value) :
      Conversation (.ask question next) ({ question, answer } :: exchanges) value

theorem conversation_run
    (reply : (question : Question) -> State -> Answer question × State)
    (dialogue : Dialogue Question Answer Value) (state : State) :
    Conversation dialogue (dialogue.transcript reply state) (dialogue.run reply state).1 := by
  induction dialogue generalizing state with
  | done value => exact .done value
  | ask question next ih => exact .ask (ih _ _)

variable {dialogue : Dialogue Question Answer Value}
variable {next : Value -> Dialogue Question Answer Result}
variable {question : Question} {following : Answer question -> Dialogue Question Answer Value}
variable {exchanges : List (Exchange Question Answer)} {value : Value} {result : Result}

/-!
# Taking a conversation apart
-/

theorem Conversation.done_inv {other : Value}
    (h : Conversation (Dialogue.done value : Dialogue Question Answer Value)
      exchanges other) :
    exchanges = [] ∧ other = value := by
  cases h
  exact ⟨rfl, rfl⟩

theorem Conversation.request_inv {answer : Answer question}
    (h : Conversation (request question) exchanges answer) :
    exchanges = [⟨question, answer⟩] := by
  cases h with
  | ask h =>
      rcases h.done_inv with ⟨rfl, rfl⟩
      rfl

theorem Conversation.request_bind_inv
    (h : Conversation (request question >>= following) exchanges value) :
    exists answer rest, exchanges = { question, answer } :: rest ∧
      Conversation (following answer) rest value := by
  cases h with
  | @ask _ _ answer rest _ h => exact ⟨answer, rest, rfl, h⟩

theorem Conversation.bind_inv (h : Conversation (dialogue >>= next) exchanges result) :
    exists first value rest, exchanges = first ++ rest ∧ Conversation dialogue first value ∧
      Conversation (next value) rest result := by
  induction dialogue generalizing exchanges with
  | done value => exact ⟨[], value, exchanges, rfl, .done value, h⟩
  | ask question rest ih =>
      cases h with
      | ask h =>
          rcases ih _ h with ⟨first, value, later, rfl, hfirst, hlater⟩
          exact ⟨_ :: first, value, later, rfl, .ask hfirst, hlater⟩

theorem Conversation.foldlM_steps {Item : Type}
    {step : Value -> Item -> Dialogue Question Answer Value} {items : List Item}
    {before after : Value} (brings : Value -> List (Exchange Question Answer) -> Value -> Prop)
    (hrefl : forall value, brings value [] value)
    (htrans : forall {earlier middle later first second}, brings earlier first middle ->
      brings middle second later -> brings earlier (first ++ second) later)
    (hstep : forall {value item exchanges result},
      Conversation (step value item) exchanges result -> brings value exchanges result)
    (h : Conversation (items.foldlM step before) exchanges after) :
    brings before exchanges after := by
  induction items generalizing before exchanges with
  | nil =>
      rcases h.done_inv with ⟨rfl, rfl⟩
      exact hrefl _
  | cons item rest ih =>
      rw [List.foldlM_cons] at h
      rcases h.bind_inv with ⟨_, value, later, rfl, hfirst, hlater⟩
      exact htrans (hstep hfirst) (ih hlater)

theorem Conversation.foldlM_keeps {Item : Type}
    {step : Value -> Item -> Dialogue Question Answer Value} {items : List Item}
    {before after : Value} (kept : Value -> Prop)
    (hstep : forall {value item exchanges result}, kept value ->
      Conversation (step value item) exchanges result -> kept result)
    (h : Conversation (items.foldlM step before) exchanges after) (hbefore : kept before) :
    kept after :=
  h.foldlM_steps (fun earlier _ later => kept earlier -> kept later) (fun _ hkept => hkept)
    (fun hfirst hsecond hkept => hsecond (hfirst hkept))
    (fun hconversation hkept => hstep hkept hconversation) hbefore

/-!
# What is asked whatever the answers
-/

/-- Whether a dialogue asks nothing but questions of a kind. -/
def Asks (kind : Question -> Prop) : Dialogue Question Answer Value -> Prop
  | done _ => True
  | ask question next => kind question ∧ forall answer, (next answer).Asks kind

variable {kind : Question -> Prop}

@[simp] theorem asks_done : (done value : Dialogue Question Answer Value).Asks kind := trivial

@[simp] theorem asks_request :
    (request question : Dialogue Question Answer (Answer question)).Asks kind <->
      kind question := by
  simp [request, Asks]

theorem Asks.mono {wider : Question -> Prop} (h : dialogue.Asks kind)
    (hwider : forall question, kind question -> wider question) : dialogue.Asks wider := by
  induction dialogue with
  | done value => trivial
  | ask question rest ih => exact ⟨hwider question h.1, fun answer => ih answer (h.2 answer)⟩

theorem Asks.bind (h : dialogue.Asks kind) (hnext : forall value, (next value).Asks kind) :
    (dialogue >>= next).Asks kind := by
  induction dialogue with
  | done value => exact hnext value
  | ask question rest ih => exact ⟨h.1, fun answer => ih answer (h.2 answer)⟩

theorem Asks.foldlM {Item : Type} {step : Value -> Item -> Dialogue Question Answer Value}
    (h : forall value item, (step value item).Asks kind) (value : Value) (items : List Item) :
    (items.foldlM step value).Asks kind := by
  induction items generalizing value with
  | nil => exact asks_done
  | cons item rest ih =>
      rw [List.foldlM_cons]
      exact (h value item).bind ih

theorem Asks.widen {Wider : Type} {WiderAnswer : Wider -> Type} {word : Question -> Wider}
    {back : (question : Question) -> WiderAnswer (word question) -> Answer question}
    {wider : Wider -> Prop} (hword : forall question, kind question -> wider (word question))
    (h : dialogue.Asks kind) : (dialogue.widen word back).Asks wider := by
  induction dialogue with
  | done value => trivial
  | ask question next ih =>
      exact ⟨hword question h.1, fun answer => ih _ (h.2 _)⟩

theorem Conversation.asks (h : Conversation dialogue exchanges value)
    (hasks : dialogue.Asks kind) :
    forall exchange, exchange ∈ exchanges -> kind exchange.question := by
  induction h with
  | done => simp
  | ask _ ih =>
      intro exchange hexchange
      rcases List.mem_cons.mp hexchange with rfl | hrest
      · exact hasks.1
      · exact ih (hasks.2 _) exchange hrest

/-!
# A dialogue that is not over
-/

inductive Partway :
    Dialogue Question Answer Value -> List (Exchange Question Answer) ->
      Dialogue Question Answer Value -> Prop where
  | start (dialogue : Dialogue Question Answer Value) : Partway dialogue [] dialogue
  | ask {question : Question} {next : Answer question -> Dialogue Question Answer Value}
      {answer : Answer question} {exchanges : List (Exchange Question Answer)}
      {rest : Dialogue Question Answer Value} (h : Partway (next answer) exchanges rest) :
      Partway (.ask question next) ({ question, answer } :: exchanges) rest

variable {rest : Dialogue Question Answer Value}

theorem Partway.snoc (h : Partway dialogue exchanges (.ask question following))
    (answer : Answer question) :
    Partway dialogue (exchanges ++ [⟨question, answer⟩]) (following answer) := by
  generalize hleft : Dialogue.ask question following = left at h
  induction h with
  | start =>
      subst hleft
      exact .ask (.start _)
  | ask _ ih => exact .ask (ih hleft)

theorem Partway.conversation (h : Partway dialogue exchanges (.done value)) :
    Conversation dialogue exchanges value := by
  generalize hleft : Dialogue.done value = left at h
  induction h with
  | start =>
      subst hleft
      exact .done value
  | ask _ ih => exact .ask (ih hleft)

theorem Partway.asks (h : Partway dialogue exchanges rest) (hasks : dialogue.Asks kind) :
    rest.Asks kind := by
  induction h with
  | start => exact hasks
  | ask _ ih => exact ih (hasks.2 _)

/-!
# Exchanges that a state answers
-/

def stateAfter (reply : (question : Question) -> State -> Answer question × State)
    (state : State) (exchanges : List (Exchange Question Answer)) : State :=
  exchanges.foldl (fun state exchange => (reply exchange.question state).2) state

/-- Whether exchanges hold the answers that a state gives as it changes. -/
def GivenBy (reply : (question : Question) -> State -> Answer question × State) :
    State -> List (Exchange Question Answer) -> Prop
  | _, [] => True
  | state, exchange :: rest =>
      exchange.answer = (reply exchange.question state).1 ∧
        GivenBy reply (reply exchange.question state).2 rest

variable {reply : (question : Question) -> State -> Answer question × State}
variable {state : State} {first second : List (Exchange Question Answer)}

theorem stateAfter_cons {answer : Answer question} :
    stateAfter reply state ({ question, answer } :: exchanges) =
      stateAfter reply (reply question state).2 exchanges :=
  rfl

theorem stateAfter_append :
    stateAfter reply state (first ++ second) =
      stateAfter reply (stateAfter reply state first) second :=
  List.foldl_append

theorem givenBy_cons {answer : Answer question} :
    GivenBy reply state ({ question, answer } :: exchanges) <->
      answer = (reply question state).1 ∧ GivenBy reply (reply question state).2 exchanges :=
  Iff.rfl

theorem givenBy_append :
    GivenBy reply state (first ++ second) <->
      GivenBy reply state first ∧ GivenBy reply (stateAfter reply state first) second := by
  induction first generalizing state with
  | nil => simp [GivenBy, stateAfter]
  | cons exchange rest ih =>
      rw [List.cons_append, GivenBy, GivenBy, ih, and_assoc]
      rfl

theorem givenBy_transcript
    (reply : (question : Question) -> State -> Answer question × State)
    (dialogue : Dialogue Question Answer Value) (state : State) :
    GivenBy reply state (dialogue.transcript reply state) ∧
      stateAfter reply state (dialogue.transcript reply state) =
        (dialogue.run reply state).2 := by
  induction dialogue generalizing state with
  | done value => exact ⟨trivial, rfl⟩
  | ask question next ih => exact ⟨⟨rfl, (ih _ _).1⟩, (ih _ _).2⟩

theorem view_stateAfter {View : Type} (view : State -> View) {act : Question -> View -> View}
    (h : forall question state, view (reply question state).2 = act question (view state))
    (exchanges : List (Exchange Question Answer)) (state : State) :
    view (stateAfter reply state exchanges) =
      (exchanges.map Exchange.question).foldl
        (fun held question => act question held) (view state) := by
  induction exchanges generalizing state with
  | nil => rfl
  | cons exchange rest ih =>
      rw [List.map_cons, List.foldl_cons, <- h]
      exact ih _

/-- An invariant under questions of a kind holds throughout, and so does what it grants. -/
theorem GivenBy.keeps (kept : State -> Prop) (good : Exchange Question Answer -> Prop)
    (h : forall question state, kind question -> kept state ->
      good { question, answer := (reply question state).1 } ∧ kept (reply question state).2)
    (hgiven : GivenBy reply state exchanges)
    (hkind : forall exchange, exchange ∈ exchanges -> kind exchange.question)
    (hkept : kept state) :
    (forall exchange, exchange ∈ exchanges -> good exchange) ∧
      kept (stateAfter reply state exchanges) := by
  induction exchanges generalizing state with
  | nil => exact ⟨by simp, hkept⟩
  | cons exchange rest ih =>
      rcases exchange with ⟨question, answer⟩
      rcases givenBy_cons.mp hgiven with ⟨rfl, hlater⟩
      rw [List.forall_mem_cons] at hkind
      rcases h question state hkind.1 hkept with ⟨hgood, hafter⟩
      rcases ih hlater hkind.2 hafter with ⟨hrest, hend⟩
      exact ⟨List.forall_mem_cons.mpr ⟨hgood, hrest⟩, hend⟩

theorem keeps_run (kept : State -> Prop) {good : Exchange Question Answer -> Prop}
    (h : forall question state, kind question -> kept state ->
      good { question, answer := (reply question state).1 } ∧ kept (reply question state).2)
    (hasks : dialogue.Asks kind) (hkept : kept state) :
    (forall exchange, exchange ∈ dialogue.transcript reply state -> good exchange) ∧
      kept (dialogue.run reply state).2 := by
  rcases givenBy_transcript reply dialogue state with ⟨hgiven, hafter⟩
  rw [<- hafter]
  exact hgiven.keeps kept good h ((conversation_run reply dialogue state).asks hasks) hkept

/-- Where every answer is one that the shown state gives, a run shows the run from there. -/
theorem run_of_shows {Twin : Type}
    {answers : (question : Question) -> Twin -> Answer question × Twin}
    (shows : State -> Twin) (kept : State -> Prop)
    (h : forall question state, kept state ->
      answers question (shows state) = ((reply question state).1, shows (reply question state).2) ∧
        kept (reply question state).2)
    (dialogue : Dialogue Question Answer Value) (hkept : kept state) :
    dialogue.run answers (shows state) =
      ((dialogue.run reply state).1, shows (dialogue.run reply state).2) := by
  induction dialogue generalizing state with
  | done value => rfl
  | ask question next ih =>
      rcases h question state hkept with ⟨hanswer, hafter⟩
      simp only [run, hanswer]
      exact ih _ hafter

end Dialogue

end BrokerProbe
