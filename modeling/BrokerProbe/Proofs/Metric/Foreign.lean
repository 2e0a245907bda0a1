import BrokerProbe.Proofs.Metric.Hall
import BrokerProbe.Proofs.Metric.InStep
import BrokerProbe.Proofs.Metric.Locality
/-!
# Instruments of others

Others may have put what they like into the registry, also under the keys that a
publisher asks for, and one instrument under several.  What a publisher asks for
does not depend on that, and it changes no windows and gauges but those that it
was given: an instrument of the wrong shape is never given out, and one that is
under other keys alone is never asked for.
-/

namespace BrokerProbe

namespace Metric

open Dialogue (Conversation Exchange GivenBy InStep stateAfter)

/-!
# What is asked for whatever there is
-/

/-- Nothing is known of what there is; the keys are seen that are asked for instruments. -/
def blindly : Pairing Hall Space String where
  reply := Hall.reply
  answers := Space.reply
  places _ _ := True
  handles _ _ := True
  seen exchange := exchange.question.claims?

section Blindly

variable {State Value Other : Type} {recording : Recording Value} {other : Recording Other}

theorem Recording.filterMap_claims?_eq_nil
    (h : recording.Asks fun question => question.claims? = none)
    (reply : (question : Question) -> State -> Answer question × State) (state : State) :
    (recording.transcript reply state).filterMap (fun exchange => exchange.question.claims?) =
      [] :=
  List.filterMap_eq_nil_iff.mpr ((Dialogue.conversation_run reply recording state).asks h)

theorem Recording.pairs_blindly (h : recording.Asks fun question => question.claims? = none)
    (hother : other.Asks fun question => question.claims? = none) :
    Recording.Pairs blindly (fun _ _ => True) recording other := by
  intro hall space _
  have hseen := filterMap_claims?_eq_nil h Hall.reply hall
  exact ⟨trivial, trivial, hseen.trans (filterMap_claims?_eq_nil hother Space.reply space).symm⟩

theorem Recording.pairs_blindly_request (question : Question) :
    Recording.Pairs blindly (fun _ _ => True) (Dialogue.request question)
      (Dialogue.request question) :=
  InStep.request fun _ _ _ => ⟨trivial, trivial, rfl⟩

theorem Publisher.pairs_blindly_window (publisher : Publisher) (key : Key) (capacity : Nat) :
    Recording.Pairs blindly (fun _ _ => True) (publisher.window key capacity)
      (publisher.window key capacity) := by
  unfold Publisher.window
  split
  · refine (Recording.pairs_blindly_request (.window key.encode capacity)).bind
      fun answer other _ => Recording.pairs_blindly ?_ ?_
    · cases answer with
      | ok handle => exact ⟨rfl, fun _ => trivial⟩
      | error error => exact ⟨rfl, fun _ => trivial⟩
    · cases other with
      | ok handle => exact ⟨rfl, fun _ => trivial⟩
      | error error => exact ⟨rfl, fun _ => trivial⟩
  · exact Recording.pairs_blindly ⟨rfl, fun _ => trivial⟩ ⟨rfl, fun _ => trivial⟩

theorem Publisher.pairs_blindly_showAvailability (publisher : Publisher)
    (ratio : Option Float) :
    Recording.Pairs blindly (fun _ _ => True) (publisher.showAvailability ratio)
      (publisher.showAvailability ratio) := by
  unfold Publisher.showAvailability
  split
  · cases ratio with
    | none => exact InStep.done trivial
    | some ratio =>
        refine (Recording.pairs_blindly_request (.gauge _)).bind
          fun answer other _ => Recording.pairs_blindly ?_ ?_
        · cases answer with
          | ok shown => exact ⟨rfl, fun _ => trivial⟩
          | error error => trivial
        · cases other with
          | ok shown => exact ⟨rfl, fun _ => trivial⟩
          | error error => trivial
  · exact InStep.done trivial

theorem joins_blindly (flags : Flags) : blindly.Joins flags flags where
  window role := Publisher.pairs_blindly_window { role, flags }
  showAvailability role := Publisher.pairs_blindly_showAvailability { role, flags }
  record _ _ := Recording.pairs_blindly ⟨rfl, fun _ => trivial⟩ ⟨rfl, fun _ => trivial⟩
  read _ _ := Recording.pairs_blindly ⟨rfl, fun _ => trivial⟩ ⟨rfl, fun _ => trivial⟩

end Blindly

/-!
# What questions reach
-/

variable {uses : Key -> Prop} {question : Question} {text : String} {number : Nat}
variable {commons : Commons} {hall : Hall} {questions : List Question}
variable {exchanges first second : List (Exchange Question Answer)}

def Reached (uses : Key -> Prop) (shape : Shape) (text : String) : Prop :=
  exists key, uses key ∧ key.kind.shape = shape ∧ key.encode = text

/-- Whether a question is about no instruments but those of some keys, in their shapes. -/
def Question.Reaches (uses : Key -> Prop) : Question -> Prop
  | .window text _ => Reached uses .histogram text
  | .gauge text => Reached uses .gauge text
  | .detach _ => True
  | .resize handle _ => handle.Within (Reached uses .histogram)
  | .record handle _ => handle.Within (Reached uses .histogram)
  | .read _ => True
  | .set text _ => Reached uses .gauge text

theorem Question.Reaches.mono {wider : Key -> Prop} (h : question.Reaches uses)
    (hwider : forall key, uses key -> wider key) : question.Reaches wider := by
  have hreached : forall {shape text}, Reached uses shape text -> Reached wider shape text :=
    fun ⟨key, huses, hkey⟩ => ⟨key, hwider key huses, hkey⟩
  cases question with
  | window text capacity => exact hreached h
  | gauge text => exact hreached h
  | set text value => exact hreached h
  | resize handle capacity =>
      cases handle with
      | published text => exact hreached h
      | detached number => trivial
  | record handle value =>
      cases handle with
      | published text => exact hreached h
      | detached number => trivial
  | _ => trivial

theorem Question.Reaches.exists_key (h : question.Reaches uses)
    (hkey : question.key? = some text) : exists key, uses key ∧ key.encode = text := by
  have hreached : forall {shape}, Reached uses shape text -> exists key, uses key ∧
      key.encode = text := fun ⟨key, huses, _, hencode⟩ => ⟨key, huses, hencode⟩
  cases question with
  | window own capacity => cases hkey; exact hreached h
  | gauge own => cases hkey; exact hreached h
  | set own value => cases hkey; exact hreached h
  | resize handle capacity => cases handle <;> cases hkey; exact hreached h
  | record handle value => cases handle <;> cases hkey; exact hreached h
  | detach capacity => cases hkey
  | read handle => cases hkey

theorem Question.Reaches.effect_eq {held : Instrument} (h : question.Reaches uses)
    (hkey : question.key? = some text)
    (hshape : forall key, uses key -> key.encode = text -> held.shape ≠ key.kind.shape) :
    question.effect (some held) = some held := by
  have hreached : forall {shape}, Reached uses shape text -> held.shape ≠ shape := by
    rintro _ ⟨key, huses, rfl, hencode⟩
    exact hshape key huses hencode
  have hwindow : Reached uses .histogram text -> exists value, held = .gauge value := by
    intro hreach
    cases held with
    | window window => exact absurd rfl (hreached hreach)
    | gauge value => exact ⟨value, rfl⟩
  cases question with
  | window own capacity => cases held <;> rfl
  | gauge own => cases held <;> rfl
  | detach capacity => cases hkey
  | read handle => cases hkey
  | resize handle capacity =>
      cases handle with
      | detached own => cases hkey
      | published own =>
          cases hkey
          rcases hwindow h with ⟨value, rfl⟩
          rfl
  | record handle value =>
      cases handle with
      | detached own => cases hkey
      | published own =>
          cases hkey
          rcases hwindow h with ⟨value, rfl⟩
          rfl
  | set own value =>
      cases hkey
      cases held with
      | window window => rfl
      | gauge before => exact absurd rfl (hreached h)

/-- An instrument stays as it is if no key that has its shape leads to it. -/
theorem Commons.contents_followAll (h : commons.pool.Has number)
    (hreaches : forall question, question ∈ questions -> question.Reaches uses)
    (huses : forall key, uses key -> commons.pool.held? key.encode = some number ->
      (commons.pool.contents number).shape ≠ key.kind.shape) :
    (commons.followAll questions).pool.contents number = commons.pool.contents number := by
  induction questions generalizing commons with
  | nil => rfl
  | cons question rest ih =>
      rw [List.forall_mem_cons] at hreaches
      have hstep : (commons.follow question).pool.contents number =
          commons.pool.contents number := by
        by_cases hheld : exists text, question.key? = some text ∧
            commons.pool.held? text = some number
        · rcases hheld with ⟨text, hkey, hheld⟩
          have heffect := contents_follow_of_held hkey hheld
          rw [hreaches.1.effect_eq hkey] at heffect
          · exact Option.some.inj heffect
          · rintro key hused rfl
            exact huses key hused hheld
        · exact contents_follow_of_not_held h fun text hkey hown => hheld ⟨text, hkey, hown⟩
      refine (ih (has_follow h question) hreaches.2 ?_).trans hstep
      intro key hused hheld
      rw [hstep]
      have hafter : (commons.followAll [question]).pool.held? key.encode = some number := hheld
      exact huses key hused ((held?_followAll_iff h).mp hafter)

theorem Commons.get?_followAll_of_shape_ne {held : Instrument}
    (hreaches : forall question, question ∈ questions -> question.Reaches uses)
    (hheld : commons.view.get? text = some held)
    (huses : forall key, uses key -> commons.Joint key.encode text ->
      held.shape ≠ key.kind.shape) :
    (commons.followAll questions).view.get? text = some held := by
  rw [view, Pool.get?_view, Option.map_eq_some_iff] at hheld ⊢
  rcases hheld with ⟨number, hnumber, rfl⟩
  have hhas := commons.sound text number hnumber
  refine ⟨number, (held?_followAll_iff hhas).mpr hnumber, contents_followAll hhas hreaches ?_⟩
  exact fun key hused hkey => huses key hused (joint_of_held hkey hnumber)

/-!
# Instruments that were asked for
-/

theorem Question.mem_claimed {exchange : Exchange Question Answer}
    (hexchange : exchange ∈ exchanges) (hclaims : exchange.question.claims? = some text) :
    text ∈ claimed (exchanges.map Exchange.question) :=
  List.mem_filterMap.mpr ⟨exchange.question, List.mem_map_of_mem hexchange, hclaims⟩

theorem Hall.hands_givenBy {good : Handle -> Prop} (h : GivenBy Hall.reply hall exchanges)
    (hpublished : forall exchange, exchange ∈ exchanges -> forall key capacity,
      exchange.question = .window key capacity -> good (.published key))
    (hdetached : forall number, good (.detached number)) :
    forall exchange, exchange ∈ exchanges -> Hands good exchange :=
  (h.keeps (fun _ => True) (Hands good)
    (fun _ hall hasked _ => ⟨Question.hands hasked hdetached hall.space, trivial⟩)
    hpublished trivial).1

def GaugeAsked (exchanges : List (Exchange Question Answer)) (key : String) : Prop :=
  exists exchange, exchange ∈ exchanges ∧ exchange.question = .gauge key

theorem GaugeAsked.mono (h : GaugeAsked first text) (hsubset : first ⊆ second) :
    GaugeAsked second text := by
  rcases h with ⟨exchange, hexchange, hquestion⟩
  exact ⟨exchange, hsubset hexchange, hquestion⟩

/-- Whether only windows are changed that were handed out, and gauges set that were asked for. -/
structure Orderly (exchanges : List (Exchange Question Answer)) : Prop where
  changes : forall good : Handle -> Prop,
    (forall exchange, exchange ∈ exchanges -> Hands good exchange) ->
    forall exchange, exchange ∈ exchanges -> exchange.question.ChangesOnly good
  sets : forall exchange, exchange ∈ exchanges -> forall key value,
    exchange.question = .set key value -> GaugeAsked exchanges key

namespace Orderly

theorem append (hfirst : Orderly first) (hsecond : Orderly second) :
    Orderly (first ++ second) where
  changes good hhands := by
    rw [List.forall_mem_append] at hhands ⊢
    exact ⟨hfirst.changes good hhands.1, hsecond.changes good hhands.2⟩
  sets := by
    rw [List.forall_mem_append]
    constructor
    · intro exchange hexchange key value hset
      exact (hfirst.sets exchange hexchange key value hset).mono (List.subset_append_left _ _)
    · intro exchange hexchange key value hset
      exact (hsecond.sets exchange hexchange key value hset).mono (List.subset_append_right _ _)

theorem of_claims {allowed : Kind -> Prop}
    (hclaims : forall exchange, exchange ∈ exchanges -> exchange.question.Claims allowed)
    (hchanges : forall good : Handle -> Prop,
      (forall exchange, exchange ∈ exchanges -> Hands good exchange) ->
      forall exchange, exchange ∈ exchanges -> exchange.question.ChangesOnly good) :
    Orderly exchanges where
  changes := hchanges
  sets exchange hexchange key value hset := by
    have hclaim := hclaims exchange hexchange
    rw [hset] at hclaim
    exact hclaim.elim

theorem reaches (h : Orderly exchanges) (hgiven : GivenBy Hall.reply hall exchanges)
    (hfits : forall exchange, exchange ∈ exchanges -> exchange.question.Fits)
    (huses : forall key : Key,
      key.encode ∈ Question.claimed (exchanges.map Exchange.question) -> uses key) :
    forall exchange, exchange ∈ exchanges -> exchange.question.Reaches uses := by
  have hwindow : forall exchange, exchange ∈ exchanges -> forall text capacity,
      exchange.question = .window text capacity -> Reached uses .histogram text := by
    intro exchange hexchange text capacity hquestion
    have hfit := hfits exchange hexchange
    rw [hquestion] at hfit
    rcases hfit with ⟨key, rfl, hshape⟩
    exact ⟨key, huses key (Question.mem_claimed hexchange (by rw [hquestion]; rfl)), hshape, rfl⟩
  have hgauge : forall text, GaugeAsked exchanges text -> Reached uses .gauge text := by
    rintro text ⟨exchange, hexchange, hquestion⟩
    have hfit := hfits exchange hexchange
    rw [hquestion] at hfit
    rcases hfit with ⟨key, rfl, hshape⟩
    exact ⟨key, huses key (Question.mem_claimed hexchange (by rw [hquestion]; rfl)), hshape, rfl⟩
  have hhands : forall exchange, exchange ∈ exchanges ->
      Hands (Handle.Within (Reached uses .histogram)) exchange :=
    Hall.hands_givenBy hgiven hwindow fun _ => trivial
  intro exchange hexchange
  have hchanges := h.changes _ hhands exchange hexchange
  cases hquestion : exchange.question with
  | window text capacity => exact hwindow exchange hexchange text capacity hquestion
  | gauge text => exact hgauge text ⟨exchange, hexchange, hquestion⟩
  | resize handle capacity =>
      rw [hquestion] at hchanges
      exact hchanges
  | record handle value =>
      rw [hquestion] at hchanges
      exact hchanges
  | set text value => exact hgauge text (h.sets exchange hexchange text value hquestion)
  | detach capacity => trivial
  | read handle => trivial

end Orderly

theorem Publisher.orderly_showAvailability {publisher : Publisher} {ratio : Option Float}
    {shown : Option String}
    (h : Conversation (publisher.showAvailability ratio) exchanges shown) :
    Orderly exchanges where
  changes good _ := h.asks (asks_showAvailability ratio trivial fun _ => trivial)
  sets := by
    unfold Publisher.showAvailability at h
    split at h
    · cases ratio with
      | none =>
          rcases h.done_inv with ⟨rfl, _⟩
          simp
      | some ratio =>
          rcases h.request_bind_inv with ⟨answer, rest, rfl, hrest⟩
          have hasked : GaugeAsked (⟨.gauge (Key.availability publisher.role).encode, answer⟩ ::
              rest) (Key.availability publisher.role).encode := ⟨_, List.mem_cons_self, rfl⟩
          cases answer with
          | error error =>
              rcases hrest.done_inv with ⟨rfl, _⟩
              simp
          | ok granted =>
              rcases hrest.request_bind_inv with ⟨_, nothing, rfl, hdone⟩
              rcases hdone.done_inv with ⟨rfl, _⟩
              rw [List.forall_mem_cons, List.forall_mem_singleton]
              refine ⟨nofun, ?_⟩
              intro own value hset
              exact (Question.set.inj hset).1 ▸ hasked
    · rcases h.done_inv with ⟨rfl, _⟩
      simp

end Metric

end BrokerProbe
