import BrokerProbe.Proofs.Metric.Tally
/-!
# Whose windows a tally touches

A tally names no windows but those that it was handed, and nobody is handed a
window twice: one that is held stays out of reach of everything that claims
other keys or windows of its own.
-/

namespace BrokerProbe

namespace Metric

open Dialogue (Conversation Exchange GivenBy stateAfter)

variable {good : Handle -> Prop}

def Question.ChangesOnly (good : Handle -> Prop) : Question -> Prop
  | .resize handle _ => good handle
  | .record handle _ => good handle
  | _ => True

theorem Question.ChangesOnly.mono {wider : Handle -> Prop} {question : Question}
    (h : question.ChangesOnly good) (hwider : forall handle, good handle -> wider handle) :
    question.ChangesOnly wider := by
  cases question with
  | resize handle capacity => exact hwider handle h
  | record handle value => exact hwider handle h
  | _ => trivial

theorem Question.ChangesOnly.change_eq {question : Question} {handle : Handle}
    (h : question.ChangesOnly fun other => other ≠ handle) (held : Window) :
    question.change handle held = held := by
  cases question with
  | resize other capacity => exact if_neg h
  | record other value => exact if_neg h
  | _ => rfl

def Hands (good : Handle -> Prop) : Exchange Question Answer -> Prop
  | ⟨.window _ _, answer⟩ => forall handle, answer = .ok handle -> good handle
  | ⟨.detach _, answer⟩ => good answer
  | _ => True

/-!
# Windows that are out of reach
-/

/-- Whether nobody is handed a window who claims keys of the allowed kinds only. -/
def Space.Reserves (space : Space) (allowed : Kind -> Prop) : Handle -> Prop
  | .published own => forall key : Key, key.encode = own -> ¬ allowed key.kind
  | .detached number => number < space.detached.size

variable {allowed : Kind -> Prop} {space : Space} {handle : Handle} {question : Question}

theorem Space.size_detached_reply (space : Space) (question : Question) :
    space.detached.size <= (space.reply question).2.detached.size := by
  cases question with
  | detach capacity => simp [reply, detach]
  | resize other capacity => cases other <;> simp [reply, changeWindow]
  | record other value => cases other <;> simp [reply, changeWindow]
  | read other =>
      rw [reply]
      split <;> exact Nat.le_refl _
  | _ => exact Nat.le_refl _

theorem Space.Reserves.reply (h : space.Reserves allowed handle) (question : Question) :
    (space.reply question).2.Reserves allowed handle := by
  cases handle with
  | published own => exact h
  | detached number => exact Nat.lt_of_lt_of_le h (space.size_detached_reply question)

theorem Space.reserves_published {key : Key} (h : ¬ allowed key.kind) (space : Space) :
    space.Reserves allowed (.published key.encode) := by
  intro other hother
  rw [Key.encode_injective hother]
  exact h

theorem Space.reserves_detach (space : Space) (capacity : Nat) :
    (space.reply (.detach capacity)).2.Reserves allowed (space.reply (.detach capacity)).1 := by
  simp [reply, detach, Reserves]

theorem Space.Reserves.hands (h : space.Reserves allowed handle)
    (hclaims : question.Claims allowed) :
    Hands (fun other => other ≠ handle) ⟨question, (space.reply question).1⟩ := by
  cases question with
  | window own capacity =>
      rcases hclaims with ⟨key, rfl, hkind⟩
      rintro _ hgiven rfl
      rw [Space.reply_window_fst] at hgiven
      split at hgiven
      · cases hgiven
      · cases hgiven
        exact h key rfl hkind
  | detach capacity =>
      rintro rfl
      exact Nat.lt_irrefl _ h
  | _ => trivial

theorem Space.Reserves.hands_givenBy {exchanges : List (Exchange Question Answer)}
    (h : space.Reserves allowed handle) (hgiven : GivenBy Space.reply space exchanges)
    (hclaims : forall exchange, exchange ∈ exchanges -> exchange.question.Claims allowed) :
    (forall exchange, exchange ∈ exchanges -> Hands (fun other => other ≠ handle) exchange) ∧
      (stateAfter Space.reply space exchanges).Reserves allowed handle :=
  hgiven.keeps (fun space => space.Reserves allowed handle) _
    (fun question _ hclaims h => ⟨h.hands hclaims, h.reply question⟩) hclaims h

/-!
# What a tally was handed
-/

variable {publisher : Publisher} {exchanges : List (Exchange Question Answer)}

inductive Publisher.Claim (key : Key) (capacity : Nat) :
    List (Exchange Question Answer) -> Handle -> Prop where
  | granted {handle : Handle} :
      Claim key capacity
        [⟨.window key.encode capacity, .ok handle⟩, ⟨.resize handle capacity, ()⟩] handle
  | denied {error : RegistryError} {handle : Handle} :
      Claim key capacity
        [⟨.window key.encode capacity, .error error⟩, ⟨.detach capacity, handle⟩] handle
  | withheld {handle : Handle} : Claim key capacity [⟨.detach capacity, handle⟩] handle

theorem Publisher.window_claim {key : Key} {capacity : Nat}
    (h : Conversation (publisher.window key capacity) exchanges handle) :
    Claim key capacity exchanges handle := by
  unfold Publisher.window at h
  split at h
  · rcases h.request_bind_inv with ⟨answer, rest, rfl, hrest⟩
    cases answer with
    | ok granted =>
        rcases hrest.request_bind_inv with ⟨_, nothing, rfl, hdone⟩
        rcases hdone.done_inv with ⟨rfl, rfl⟩
        exact .granted
    | error error =>
        cases hrest with
        | ask hdone =>
            rcases hdone.done_inv with ⟨rfl, rfl⟩
            exact .denied
  · cases h with
    | ask hdone =>
        rcases hdone.done_inv with ⟨rfl, rfl⟩
        exact .withheld

theorem Publisher.Claim.holds {key : Key} {capacity : Nat}
    (h : Claim key capacity exchanges handle)
    (hgiven : GivenBy Space.reply space exchanges) (hkey : ¬ allowed key.kind) :
    (exists held,
      (stateAfter Space.reply space exchanges).window? handle = some held ∧
        held.capacity = Window.clamp capacity) ∧
      (stateAfter Space.reply space exchanges).Reserves allowed handle := by
  cases h with
  | granted =>
      rcases Space.window?_of_granted hgiven.1.symm with ⟨rfl, held, hheld⟩
      refine ⟨⟨held.resize capacity, ?_, held.capacity_resize capacity⟩,
        Space.reserves_published hkey _⟩
      have hresized := Space.window?_reply hheld (.resize (.published key.encode) capacity)
      rw [Question.change, if_pos rfl] at hresized
      exact hresized
  | denied =>
      rcases Dialogue.givenBy_cons.mp hgiven.2 with ⟨rfl, _⟩
      exact ⟨⟨_, Space.window?_detach _ capacity, rfl⟩, Space.reserves_detach _ capacity⟩
  | withheld =>
      rcases Dialogue.givenBy_cons.mp hgiven with ⟨rfl, _⟩
      exact ⟨⟨_, Space.window?_detach _ capacity, rfl⟩, Space.reserves_detach _ capacity⟩

theorem Publisher.window_withheld {key : Key} {capacity : Nat}
    (hflag : publisher.flags.enabled key.kind = false)
    (h : Conversation (publisher.window key capacity) exchanges handle) :
    exchanges = [⟨.detach capacity, handle⟩] := by
  rw [Publisher.window, hflag, if_neg Bool.false_ne_true] at h
  exact h.request_inv

theorem Publisher.window_holds {key : Key} {capacity : Nat}
    (h : Conversation (publisher.window key capacity) exchanges handle)
    (hgiven : GivenBy Space.reply space exchanges) (hkey : ¬ allowed key.kind) :
    (exists held,
      (stateAfter Space.reply space exchanges).window? handle = some held ∧
        held.capacity = Window.clamp capacity ∧
          (publisher.flags.enabled key.kind = false -> held.values = [])) ∧
      (stateAfter Space.reply space exchanges).Reserves allowed handle := by
  rcases (window_claim h).holds hgiven hkey with ⟨⟨held, hheld, hcapacity⟩, hreserves⟩
  refine ⟨⟨held, hheld, hcapacity, ?_⟩, hreserves⟩
  intro hflag
  obtain rfl := window_withheld hflag h
  rcases Dialogue.givenBy_cons.mp hgiven with ⟨rfl, _⟩
  cases hheld.symm.trans (space.window?_detach capacity)
  rfl

theorem Publisher.Claim.changesOnly {key : Key} {capacity : Nat}
    (h : Claim key capacity exchanges handle)
    (hhands : forall exchange, exchange ∈ exchanges -> Hands good exchange) :
    good handle ∧
      forall exchange, exchange ∈ exchanges -> exchange.question.ChangesOnly good := by
  cases h with
  | granted =>
      have hgood : good handle := hhands _ List.mem_cons_self handle rfl
      exact ⟨hgood, by simp [Question.ChangesOnly, hgood]⟩
  | denied =>
      have hgood : good handle := hhands _ (List.mem_cons_of_mem _ List.mem_cons_self)
      exact ⟨hgood, by simp [Question.ChangesOnly]⟩
  | withheld =>
      have hgood : good handle := hhands _ List.mem_cons_self
      exact ⟨hgood, by simp [Question.ChangesOnly]⟩

namespace Tally

variable {tally after : Tally}

structure Beside (good : Handle -> Prop) (tally : Tally) : Prop where
  topics : forall entry, entry ∈ tally.topics -> good entry.2
  partitions : forall entry, entry ∈ tally.partitions -> good entry.2

/-- What exchanges leave that change good windows only: the overall one stays, others may come. -/
structure Keeps (good : Handle -> Prop) (tally : Tally)
    (exchanges : List (Exchange Question Answer)) (after : Tally) : Prop where
  overall : after.overall = tally.overall
  beside : after.Beside good
  changesOnly : forall exchange, exchange ∈ exchanges -> exchange.question.ChangesOnly good

theorem Keeps.trans {middle : Tally} {first second : List (Exchange Question Answer)}
    (hfirst : tally.Keeps good first middle) (hsecond : middle.Keeps good second after) :
    tally.Keeps good (first ++ second) after where
  overall := hsecond.overall.trans hfirst.overall
  beside := hsecond.beside
  changesOnly := List.forall_mem_append.mpr ⟨hfirst.changesOnly, hsecond.changesOnly⟩

theorem Beside.keeps_self (h : tally.Beside good) : tally.Keeps good [] tally :=
  ⟨rfl, h, by simp⟩

theorem Beside.keeps_topic (h : tally.Beside good) (name : String) (hgood : good handle) :
    tally.Keeps good [] { tally with topics := (name, handle) :: tally.topics } :=
  ⟨rfl, ⟨List.forall_mem_cons.mpr ⟨hgood, h.topics⟩, h.partitions⟩, by simp⟩

theorem Beside.keeps_partition (h : tally.Beside good) (partition : Partition)
    (hgood : good handle) :
    tally.Keeps good [] { tally with partitions := (partition, handle) :: tally.partitions } :=
  ⟨rfl, ⟨h.topics, List.forall_mem_cons.mpr ⟨hgood, h.partitions⟩⟩, by simp⟩

theorem claim_keeps {key : Key} {capacity : Nat} {hold : Handle -> Tally}
    (h : Conversation (do
      let handle <- publisher.window key capacity
      return hold handle) exchanges after)
    (hhands : forall exchange, exchange ∈ exchanges -> Hands good exchange)
    (hhold : forall handle, good handle -> tally.Keeps good [] (hold handle)) :
    tally.Keeps good exchanges after := by
  rcases h.bind_inv with ⟨first, handle, nothing, rfl, hwindow, hdone⟩
  rcases hdone.done_inv with ⟨rfl, rfl⟩
  rw [List.append_nil] at hhands ⊢
  rcases (Publisher.window_claim hwindow).changesOnly hhands with ⟨hgood, hchanges⟩
  have hheld := hhold handle hgood
  exact ⟨hheld.overall, hheld.beside, hchanges⟩

theorem claimPartition_keeps {partition : Partition}
    (h : Conversation (tally.claimPartition partition) exchanges after)
    (hhands : forall exchange, exchange ∈ exchanges -> Hands good exchange)
    (hbeside : tally.Beside good) : tally.Keeps good exchanges after :=
  claim_keeps h hhands fun _ => hbeside.keeps_partition partition

theorem claimTopic_keeps {name : String} {capacity : Nat}
    (h : Conversation (tally.claimTopic name capacity) exchanges after)
    (hhands : forall exchange, exchange ∈ exchanges -> Hands good exchange)
    (hbeside : tally.Beside good) : tally.Keeps good exchanges after :=
  claim_keeps h hhands fun _ => hbeside.keeps_topic name

theorem foldlM_keeps {Item : Type} {claim : Tally -> Item -> Recording Tally}
    {items : List Item}
    (hclaim : forall {tally item exchanges after},
      Conversation (claim tally item) exchanges after ->
      (forall exchange, exchange ∈ exchanges -> Hands good exchange) ->
      tally.Beside good -> tally.Keeps good exchanges after)
    (h : Conversation (items.foldlM claim tally) exchanges after)
    (hhands : forall exchange, exchange ∈ exchanges -> Hands good exchange)
    (hbeside : tally.Beside good) : tally.Keeps good exchanges after := by
  refine h.foldlM_steps
    (fun tally exchanges after =>
      (forall exchange, exchange ∈ exchanges -> Hands good exchange) ->
        tally.Beside good -> tally.Keeps good exchanges after)
    ?_ ?_ hclaim hhands hbeside
  · exact fun tally _ hbeside => hbeside.keeps_self
  · intro earlier middle later first second hfirst hsecond hhands hbeside
    rw [List.forall_mem_append] at hhands
    have hmiddle := hfirst hhands.1 hbeside
    exact hmiddle.trans (hsecond hhands.2 hmiddle.beside)

theorem plan_keeps {topic : Topic}
    (h : Conversation (tally.plan topic) exchanges after)
    (hhands : forall exchange, exchange ∈ exchanges -> Hands good exchange)
    (hbeside : tally.Beside good) : tally.Keeps good exchanges after := by
  rcases h.bind_inv with ⟨first, claimed, second, rfl, hfirst, hsecond⟩
  rw [List.forall_mem_append] at hhands
  have hclaimed := claimTopic_keeps hfirst hhands.1 hbeside
  exact hclaimed.trans
    (foldlM_keeps claimPartition_keeps hsecond hhands.2 hclaimed.beside)

def opened (publisher : Publisher) (overall : Handle) : Tally :=
  { publisher, overall, topics := [], partitions := [], tries := 0, failures := 0 }

theorem beside_opened : (opened publisher handle).Beside good :=
  ⟨by simp [opened], by simp [opened]⟩

theorem start_split {topics : Topology}
    (h : Conversation (start publisher topics) exchanges tally) :
    exists first second overall,
      exchanges = first ++ second ∧
      Conversation (publisher.window (.latency publisher.role) topics.partitionCount) first
        overall ∧
      Conversation (topics.foldlM plan (opened publisher overall)) second tally := by
  rcases h.bind_inv with ⟨first, overall, second, rfl, hfirst, hsecond⟩
  exact ⟨first, second, overall, rfl, hfirst, hsecond⟩

theorem good_of_lookup {Name : Type} [BEq Name] [LawfulBEq Name] {held : List (Name × Handle)}
    {name : Name} (h : held.lookup name = some handle)
    (hgood : forall entry, entry ∈ held -> good entry.2) : good handle := by
  rcases List.lookup_eq_some_iff.mp h with ⟨before, later, rfl, _⟩
  exact hgood (name, handle) (by simp)

theorem record_keeps {held : Tally} {elapsed : Nat} (hgood : good handle)
    (h : Conversation (do
      Recording.record handle elapsed
      return held) exchanges after)
    (hheld : tally.Keeps good [] held) : tally.Keeps good exchanges after := by
  rcases h.request_bind_inv with ⟨_, nothing, rfl, hdone⟩
  rcases hdone.done_inv with ⟨rfl, rfl⟩
  exact ⟨hheld.overall, hheld.beside, List.forall_mem_singleton.mpr hgood⟩

theorem claim_record_keeps {key : Key} {capacity elapsed : Nat} {hold : Handle -> Tally}
    (h : Conversation (do
      let handle <- publisher.window key capacity
      Recording.record handle elapsed
      return hold handle) exchanges after)
    (hhands : forall exchange, exchange ∈ exchanges -> Hands good exchange)
    (hbeside : tally.Beside good)
    (hhold : forall handle, good handle -> tally.Keeps good [] (hold handle)) :
    tally.Keeps good exchanges after := by
  rcases h.bind_inv with ⟨first, handle, second, rfl, hwindow, hrecord⟩
  rw [List.forall_mem_append] at hhands
  rcases (Publisher.window_claim hwindow).changesOnly hhands.1 with ⟨hgood, hchanges⟩
  have hclaimed : tally.Keeps good first tally := ⟨rfl, hbeside, hchanges⟩
  exact hclaimed.trans (record_keeps hgood hrecord (hhold handle hgood))

theorem recordTopic_keeps {name : String} {elapsed : Nat}
    (h : Conversation (tally.recordTopic name elapsed) exchanges after)
    (hhands : forall exchange, exchange ∈ exchanges -> Hands good exchange)
    (hbeside : tally.Beside good) : tally.Keeps good exchanges after := by
  unfold recordTopic at h
  split at h
  · next handle hlookup =>
    exact record_keeps (good_of_lookup hlookup hbeside.topics) h hbeside.keeps_self
  · exact claim_record_keeps h hhands hbeside fun _ => hbeside.keeps_topic name

theorem recordPartition_keeps {partition : Partition} {elapsed : Nat}
    (h : Conversation (tally.recordPartition partition elapsed) exchanges after)
    (hhands : forall exchange, exchange ∈ exchanges -> Hands good exchange)
    (hbeside : tally.Beside good) : tally.Keeps good exchanges after := by
  unfold recordPartition at h
  split at h
  · next handle hlookup =>
    exact record_keeps (good_of_lookup hlookup hbeside.partitions) h hbeside.keeps_self
  · exact claim_record_keeps h hhands hbeside fun _ => hbeside.keeps_partition partition

theorem recordOutcome_keeps {outcome : Probe.Outcome}
    (h : Conversation (tally.recordOutcome outcome) exchanges after) :
    exists rest,
      exchanges = ⟨.record tally.overall outcome.recorded, ()⟩ :: rest ∧
      forall {good : Handle -> Prop},
        (forall exchange, exchange ∈ rest -> Hands good exchange) ->
        tally.Beside good -> tally.Keeps good rest after := by
  rcases h.request_bind_inv with ⟨_, rest, rfl, hrest⟩
  rcases hrest.bind_inv with ⟨first, middle, second, rfl, hfirst, hsecond⟩
  refine ⟨first ++ second, rfl, ?_⟩
  intro good hhands hbeside
  rw [List.forall_mem_append] at hhands
  have hcounted : (tally.count outcome).Beside good := ⟨hbeside.topics, hbeside.partitions⟩
  have hmiddle := recordTopic_keeps hfirst hhands.1 hcounted
  have hkeeps := hmiddle.trans (recordPartition_keeps hsecond hhands.2 hmiddle.beside)
  exact ⟨hkeeps.overall, hkeeps.beside, hkeeps.changesOnly⟩

end Tally

/-!
# What stays as it was
-/

theorem Space.window?_stateAfter {held : Window} (hheld : space.window? handle = some held)
    (hgiven : GivenBy Space.reply space exchanges)
    (h : forall exchange, exchange ∈ exchanges ->
      exchange.question.ChangesOnly fun other => other ≠ handle) :
    (stateAfter Space.reply space exchanges).window? handle = some held := by
  refine (hgiven.keeps (fun space => space.window? handle = some held) (fun _ => True) ?_ h
    hheld).2
  intro question space hchanges hheld
  exact ⟨trivial, (Space.window?_reply hheld question).trans
    (congrArg some (hchanges.change_eq held))⟩

/-- What others do leaves a window that is out of their reach as it is. -/
structure Space.Guards (space : Space) (handle : Handle) (held : Window) : Prop where
  window : space.window? handle = some held
  reserves : space.Reserves Kind.Partial handle

theorem Tally.recordOutcome_guards {tally after : Tally} {outcome : Probe.Outcome}
    {held : Window} (h : Conversation (tally.recordOutcome outcome) exchanges after)
    (hgiven : GivenBy Space.reply space exchanges) (hguards : space.Guards tally.overall held)
    (hbeside : tally.Beside fun handle => handle ≠ tally.overall) :
    after.overall = tally.overall ∧
      (after.Beside fun handle => handle ≠ tally.overall) ∧
      (stateAfter Space.reply space exchanges).Guards tally.overall
        (held.record outcome.recorded) := by
  have hclaims := h.asks (asks_recordOutcome Kind.Partial trivial trivial _ _)
  rcases recordOutcome_keeps h with ⟨rest, rfl, hkeeps⟩
  rcases Dialogue.givenBy_cons.mp hgiven with ⟨_, hrest⟩
  have hrecorded := Space.window?_reply hguards.window (.record tally.overall outcome.recorded)
  rw [Question.change, if_pos rfl] at hrecorded
  rcases (hguards.reserves.reply _).hands_givenBy hrest (List.forall_mem_cons.mp hclaims).2 with
    ⟨hhands, hreserves⟩
  have hafter := hkeeps hhands hbeside
  rw [Dialogue.stateAfter_cons]
  exact ⟨hafter.overall, hafter.beside,
    Space.window?_stateAfter hrecorded hrest hafter.changesOnly, hreserves⟩

theorem Tally.start_guards {tally : Tally} {topics : Topology}
    (h : Conversation (start publisher topics) exchanges tally)
    (hgiven : GivenBy Space.reply space exchanges) :
    (tally.Beside fun handle => handle ≠ tally.overall) ∧
      exists held, (stateAfter Space.reply space exchanges).Guards tally.overall held ∧
        held.capacity = Window.clamp topics.partitionCount ∧
          (publisher.flags.latency = false -> held.values = []) := by
  rcases start_split h with ⟨first, second, overall, rfl, hwindow, hplans⟩
  have hkey : ¬ Kind.Partial (Key.latency publisher.role).kind := id
  rw [Dialogue.givenBy_append] at hgiven
  rcases Publisher.window_holds hwindow hgiven.1 hkey with
    ⟨⟨held, hheld, hcapacity, hfresh⟩, hreserves⟩
  have hclaims := hplans.asks (Dialogue.Asks.foldlM
    (asks_plan Kind.Partial trivial trivial) (opened publisher overall) topics)
  rcases hreserves.hands_givenBy hgiven.2 hclaims with ⟨hhands, hafter⟩
  have hkeeps := foldlM_keeps plan_keeps hplans hhands beside_opened
  have hoverall : tally.overall = overall := hkeeps.overall
  rw [hoverall, Dialogue.stateAfter_append]
  exact ⟨hkeeps.beside, held,
    ⟨Space.window?_stateAfter hheld hgiven.2 hkeeps.changesOnly, hafter⟩, hcapacity, hfresh⟩

def Question.Spares (key : String) (question : Question) : Prop :=
  question.key? ≠ some key

theorem Question.Claims.spares {key : Key} (h : question.Claims allowed)
    (hkey : ¬ allowed key.kind)
    (hchanges : question.ChangesOnly fun other => other ≠ .published key.encode) :
    question.Spares key.encode := by
  intro hown
  cases question with
  | window own capacity =>
      rcases h with ⟨claimed, rfl, hkind⟩
      cases Key.encode_injective (Option.some.inj hown)
      exact hkey hkind
  | gauge own => exact h
  | set own value => exact h
  | resize other capacity =>
      cases other with
      | published own => exact hchanges (congrArg _ (Option.some.inj hown))
      | detached number => cases hown
  | record other value =>
      cases other with
      | published own => exact hchanges (congrArg _ (Option.some.inj hown))
      | detached number => cases hown
  | _ => cases hown

theorem Publisher.Claim.spares {key other : Key} {capacity : Nat}
    (h : Claim key capacity exchanges handle)
    (hgiven : GivenBy Space.reply space exchanges) (hkey : key.kind.Windowed)
    (hother : ¬ other.kind.Windowed) :
    handle ≠ .published other.encode ∧
      forall exchange, exchange ∈ exchanges -> exchange.question.Spares other.encode := by
  have hclaims : forall exchange, exchange ∈ exchanges ->
      exchange.question.Claims Kind.Windowed := by
    cases h with
    | granted => simp [Question.Claims, Key.encode_injective.eq_iff, hkey]
    | denied => simp [Question.Claims, Key.encode_injective.eq_iff, hkey]
    | withheld => simp [Question.Claims]
  have hhands := ((space.reserves_published hother).hands_givenBy hgiven hclaims).1
  rcases h.changesOnly hhands with ⟨hhandle, hchanges⟩
  refine ⟨hhandle, ?_⟩
  intro exchange hexchange
  exact (hclaims exchange hexchange).spares hother (hchanges exchange hexchange)

theorem Space.get?_reply_spared {key : String} (h : question.Spares key) (space : Space) :
    (space.reply question).2.registry.get? key = space.registry.get? key := by
  rw [get?_reply, Question.effectAt, if_neg h]

theorem Space.get?_stateAfter {key : String} (hgiven : GivenBy Space.reply space exchanges)
    (h : forall exchange, exchange ∈ exchanges -> exchange.question.Spares key) :
    (stateAfter Space.reply space exchanges).registry.get? key = space.registry.get? key := by
  refine (hgiven.keeps (fun after => after.registry.get? key = space.registry.get? key)
    (fun _ => True) ?_ h rfl).2
  intro question after hspares hkept
  exact ⟨trivial, (get?_reply_spared hspares after).trans hkept⟩

end Metric

end BrokerProbe
