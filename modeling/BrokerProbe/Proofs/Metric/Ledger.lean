import BrokerProbe.Proofs.Metric.Hall
import BrokerProbe.Proofs.Metric.Scope
import Mathlib.Data.List.DropRight
/-!
# Windows and their scopes

Each scope of a tally holds a window.  A published one is told by the scope's key, and
a detached one is handed out once; so what is claimed and sampled for one scope passes
by the windows of all others, unless the keys of two have an instrument in common.
-/

namespace BrokerProbe

namespace Metric

open Dialogue (Conversation Exchange GivenBy stateAfter)

open Function (update)

variable {publisher : Publisher} {commons : Commons} {hall : Hall}
variable {held after : Scope -> Option Handle} {acts : List Act}
variable {past exchanges first second later : List (Exchange Question Answer)}
variable {scope other : Scope} {handle holder given : Handle} {capacity value : Nat}
variable {values : List Nat}

/-!
# What a claim hands out
-/

theorem Hands.mono {good wider : Handle -> Prop} {exchange : Exchange Question Answer}
    (h : Hands good exchange) (hwider : forall handle, good handle -> wider handle) :
    Hands wider exchange := by
  rcases exchange with ⟨question, answer⟩
  cases question with
  | window key capacity => exact fun handle hgiven => hwider handle (h handle hgiven)
  | detach capacity => exact hwider _ h
  | _ => trivial

theorem Publisher.Claim.hands {key : Key} (h : Claim key capacity exchanges handle) :
    forall exchange, exchange ∈ exchanges -> Hands (fun given => given = handle) exchange := by
  cases h <;> simp [Hands, eq_comm]

structure Publisher.Publishes (publisher : Publisher) (key : Key) (handle : Handle) : Prop where
  enabled : publisher.flags.enabled key.kind = true
  handle_eq : handle = .published key.encode

theorem Publisher.publishes_or_new {key : Key}
    (h : Conversation (publisher.window key capacity) exchanges handle)
    (hgiven : GivenBy Hall.reply hall exchanges) :
    publisher.Publishes key handle ∨ handle = .detached hall.detached.size := by
  cases hflag : publisher.flags.enabled key.kind with
  | false =>
      obtain rfl := window_withheld hflag h
      rcases Dialogue.givenBy_cons.mp hgiven with ⟨rfl, _⟩
      exact .inr rfl
  | true =>
      cases window_claim h with
      | granted => exact .inl ⟨hflag, (Hall.window?_of_granted hgiven.1.symm).1⟩
      | denied =>
          rcases Dialogue.givenBy_cons.mp hgiven.2 with ⟨rfl, _⟩
          exact .inr rfl
      | withheld =>
          rcases Dialogue.givenBy_cons.mp hgiven with ⟨rfl, _⟩
          exact .inr rfl

theorem Publisher.Claim.window? {key : Key} (h : Claim key capacity exchanges handle)
    (hgiven : GivenBy Hall.reply hall exchanges) :
    exists window, (stateAfter Hall.reply hall exchanges).window? handle = some window ∧
      window.capacity = Window.clamp capacity := by
  cases h with
  | granted =>
      rcases Hall.window?_of_granted hgiven.1.symm with ⟨rfl, window, hwindow⟩
      exact ⟨_, Hall.window?_resize hwindow capacity, window.capacity_resize capacity⟩
  | denied =>
      rcases Dialogue.givenBy_cons.mp hgiven.2 with ⟨rfl, _⟩
      exact ⟨_, Hall.window?_detach _ capacity, rfl⟩
  | withheld =>
      rcases Dialogue.givenBy_cons.mp hgiven with ⟨rfl, _⟩
      exact ⟨_, Hall.window?_detach _ capacity, rfl⟩

/-!
# Whose window is whose
-/

def Hall.Detached (hall : Hall) (handle : Handle) : Prop :=
  exists number, number < hall.detached.size ∧ handle = .detached number

theorem Hall.Detached.stateAfter (h : hall.Detached handle)
    (exchanges : List (Exchange Question Answer)) :
    (stateAfter Hall.reply hall exchanges).Detached handle := by
  induction exchanges generalizing hall with
  | nil => exact h
  | cons exchange rest ih =>
      rcases h with ⟨number, hlt, rfl⟩
      exact ih ⟨number, Nat.lt_of_lt_of_le hlt (hall.size_detached_reply _), rfl⟩

theorem Publisher.publishes_or_detached {key : Key}
    (h : Conversation (publisher.window key capacity) exchanges handle)
    (hgiven : GivenBy Hall.reply hall exchanges) :
    publisher.Publishes key handle ∨ (stateAfter Hall.reply hall exchanges).Detached handle := by
  refine (publishes_or_new h hgiven).imp_right ?_
  rintro rfl
  rcases (window_claim h).window? hgiven with ⟨window, hwindow, _⟩
  exact ⟨_, (Array.getElem?_eq_some_iff.mp hwindow).1, rfl⟩

/--
What is known of the windows that scopes hold: each is there, is published under the
scope's key or detached, and no two share a detached one.  Nothing else was handed
out in the past.
-/
structure Ledger (publisher : Publisher) (hall : Hall) (past : List (Exchange Question Answer))
    (held : Scope -> Option Handle) : Prop where
  present : forall scope handle, held scope = some handle ->
    exists window, hall.window? handle = some window
  owned : forall scope handle, held scope = some handle ->
    publisher.Publishes (scope.key publisher.role) handle ∨ hall.Detached handle
  apart : forall scope other number, held scope = some (.detached number) ->
    held other = some (.detached number) -> scope = other
  handed : forall exchange, exchange ∈ past ->
    Hands (fun handle => (exists scope, held scope ≠ none ∧
      publisher.Publishes (scope.key publisher.role) handle) ∨ hall.Detached handle) exchange

def Apart (publisher : Publisher) (commons : Commons) (scope : Scope) (handle : Handle)
    (other : Scope) : Prop :=
  (exists number, handle = .detached number) ∨
    (publisher.flags.enabled (other.key publisher.role).kind = true ->
      ¬ commons.Joint (other.key publisher.role).encode (scope.key publisher.role).encode)

theorem Apart.stateAfter (h : Apart publisher hall.commons scope handle other)
    (exchanges : List (Exchange Question Answer)) :
    Apart publisher (stateAfter Hall.reply hall exchanges).commons scope handle other := by
  rwa [Apart, Hall.joint_stateAfter]

theorem Apart.not_same (h : Apart publisher commons scope handle other)
    (howned : publisher.Publishes (scope.key publisher.role) handle ∨
      exists number, handle = .detached number)
    (hother : publisher.Publishes (other.key publisher.role) given) :
    ¬ commons.Same given handle := by
  obtain rfl := hother.handle_eq
  rcases howned with hscope | ⟨number, rfl⟩
  · obtain rfl := hscope.handle_eq
    rcases h with ⟨_, hdetached⟩ | hapart
    · cases hdetached
    · exact hapart hother.enabled
  · exact id

theorem Commons.not_same_new {number : Nat} (commons : Commons) (h : hall.Detached handle)
    (hnumber : hall.detached.size <= number) :
    ¬ commons.Same (.detached number) handle ∧ ¬ commons.Same handle (.detached number) := by
  rcases h with ⟨own, hlt, rfl⟩
  have hne : own ≠ number := Nat.ne_of_lt (Nat.lt_of_lt_of_le hlt hnumber)
  exact ⟨hne.symm, hne⟩

theorem Ledger.owned_shape (h : Ledger publisher hall past held)
    (hheld : held scope = some handle) :
    publisher.Publishes (scope.key publisher.role) handle ∨
      exists number, handle = .detached number :=
  (h.owned scope handle hheld).imp_right fun ⟨number, _, heq⟩ => ⟨number, heq⟩

theorem Ledger.not_same_of_held (h : Ledger publisher hall past held)
    (hheld : held scope = some handle) (hother : held other = some holder) (hne : other ≠ scope)
    (hapart : Apart publisher hall.commons scope handle other) :
    ¬ hall.commons.Same holder handle := by
  rcases h.owned other holder hother with hpublished | ⟨number, _, rfl⟩
  · exact hapart.not_same (h.owned_shape hheld) hpublished
  · cases handle with
    | published key => exact id
    | detached own =>
        rintro rfl
        exact hne (h.apart other scope number hother hheld)

theorem Ledger.not_same_of_claim (h : Ledger publisher hall past held)
    (hheld : held scope = some handle)
    (hclaim : Conversation (publisher.window (other.key publisher.role) capacity) exchanges holder)
    (hgiven : GivenBy Hall.reply hall exchanges)
    (hapart : Apart publisher hall.commons scope handle other) :
    ¬ hall.commons.Same holder handle := by
  rcases Publisher.publishes_or_new hclaim hgiven with hpublished | rfl
  · exact hapart.not_same (h.owned_shape hheld) hpublished
  · rcases h.owned scope handle hheld with hpublished | hdetached
    · obtain rfl := hpublished.handle_eq
      exact id
    · exact (hall.commons.not_same_new hdetached (Nat.le_refl _)).1

theorem Hall.exists_window?_stateAfter {window : Window}
    (h : hall.window? handle = some window) (exchanges : List (Exchange Question Answer)) :
    exists window, (stateAfter Hall.reply hall exchanges).window? handle = some window := by
  induction exchanges generalizing hall window with
  | nil => exact ⟨window, h⟩
  | cons exchange rest ih =>
      rcases Hall.exists_window?_reply h exchange.question with ⟨_, hafter⟩
      exact ih hafter

theorem update_eq_some (h : update held scope (some handle) other = some holder) :
    other = scope ∧ handle = holder ∨ held other = some holder := by
  by_cases heq : other = scope
  · rw [heq, Function.update_self] at h
    exact Or.inl ⟨heq, Option.some.inj h⟩
  · rw [Function.update_of_ne heq] at h
    exact Or.inr h

theorem update_ne_none (h : held other ≠ none) : update held scope (some handle) other ≠ none := by
  by_cases heq : other = scope
  · simp [heq]
  · rwa [Function.update_of_ne heq]

theorem Ledger.handed_claim (h : Ledger publisher hall past held)
    (hclaim : Conversation (publisher.window (scope.key publisher.role) capacity) exchanges handle)
    (hgiven : GivenBy Hall.reply hall exchanges) :
    forall exchange, exchange ∈ past ++ exchanges ->
      Hands (fun given => (exists owner, update held scope (some handle) owner ≠ none ∧
        publisher.Publishes (owner.key publisher.role) given) ∨
          (stateAfter Hall.reply hall exchanges).Detached given) exchange := by
  rw [List.forall_mem_append]
  constructor
  · intro exchange hexchange
    refine (h.handed exchange hexchange).mono ?_
    rintro given (⟨other, hother, hpublished⟩ | hdetached)
    · exact Or.inl ⟨other, update_ne_none hother, hpublished⟩
    · exact Or.inr (hdetached.stateAfter exchanges)
  · intro exchange hexchange
    refine ((Publisher.window_claim hclaim).hands exchange hexchange).mono ?_
    rintro given rfl
    exact (Publisher.publishes_or_detached hclaim hgiven).imp_left fun hpublished =>
      ⟨scope, by simp, hpublished⟩

theorem Ledger.claim (h : Ledger publisher hall past held)
    (hclaim : Conversation (publisher.window (scope.key publisher.role) capacity) exchanges handle)
    (hgiven : GivenBy Hall.reply hall exchanges) :
    Ledger publisher (stateAfter Hall.reply hall exchanges) (past ++ exchanges)
      (update held scope (some handle)) where
  present other holder hholder := by
    rcases update_eq_some hholder with ⟨_, rfl⟩ | hold
    · rcases (Publisher.window_claim hclaim).window? hgiven with ⟨window, hwindow, _⟩
      exact ⟨window, hwindow⟩
    · rcases h.present other holder hold with ⟨_, hpresent⟩
      exact Hall.exists_window?_stateAfter hpresent exchanges
  owned other holder hholder := by
    rcases update_eq_some hholder with ⟨rfl, rfl⟩ | hold
    · exact Publisher.publishes_or_detached hclaim hgiven
    · exact (h.owned other holder hold).imp_right fun hdetached => hdetached.stateAfter exchanges
  apart one two number hone htwo := by
    -- A window that is handed out only now is held by nobody yet.
    have hclash : forall {other}, handle = .detached number ->
        held other ≠ some (.detached number) := by
      rintro other rfl hother
      have hdetached : Apart publisher hall.commons other (.detached number) scope :=
        Or.inl ⟨number, rfl⟩
      exact h.not_same_of_claim hother hclaim hgiven hdetached rfl
    rcases update_eq_some hone with ⟨hfirst, hnew⟩ | hone
    · rcases update_eq_some htwo with ⟨hsecond, _⟩ | htwo
      · exact hfirst.trans hsecond.symm
      · exact absurd htwo (hclash hnew)
    · rcases update_eq_some htwo with ⟨_, hnew⟩ | htwo
      · exact absurd hone (hclash hnew)
      · exact h.apart one two number hone htwo
  handed := h.handed_claim hclaim hgiven

theorem Ledger.record (h : Ledger publisher hall past held) (handle : Handle) (value : Nat) :
    Ledger publisher (hall.reply (.record handle value)).2
      (past ++ [⟨.record handle value, ()⟩]) held := by
  have hdetached : forall {other}, hall.Detached other ->
      (hall.reply (.record handle value)).2.Detached other :=
    fun hother => hother.stateAfter [⟨.record handle value, ()⟩]
  constructor
  · intro scope holder hholder
    rcases h.present scope holder hholder with ⟨_, hpresent⟩
    exact Hall.exists_window?_reply hpresent _
  · intro scope holder hholder
    exact (h.owned scope holder hholder).imp_right hdetached
  · exact h.apart
  · rw [List.forall_mem_append]
    constructor
    · intro exchange hexchange
      exact (h.handed exchange hexchange).mono fun _ => Or.imp_right hdetached
    · simp [Hands]

/-- Whether exchanges hand a window to nobody and leave it with values that were added. -/
structure Passes (hall : Hall) (exchanges : List (Exchange Question Answer))
    (handle : Handle) (values : List Nat) : Prop where
  hands : forall exchange, exchange ∈ exchanges ->
    Hands (fun given => ¬ hall.commons.Same given handle) exchange
  window : forall window, hall.window? handle = some window ->
    (stateAfter Hall.reply hall exchanges).window? handle = some (window.recordAll values)

theorem Passes.append {more : List Nat} (hfirst : Passes hall first handle values)
    (hsecond : Passes (stateAfter Hall.reply hall first) second handle more) :
    Passes hall (first ++ second) handle (values ++ more) where
  hands := by
    have hhands := hsecond.hands
    rw [Hall.same_stateAfter] at hhands
    exact List.forall_mem_append.mpr ⟨hfirst.hands, hhands⟩
  window := by
    intro window hwindow
    have hmiddle := hsecond.window _ (hfirst.window window hwindow)
    rwa [Dialogue.stateAfter_append, Window.recordAll, List.foldl_append]

theorem passes_nil : Passes hall [] handle [] :=
  ⟨by simp, fun _ hwindow => hwindow⟩

theorem Publisher.Claim.passes {key : Key} (h : Claim key capacity exchanges holder)
    (hgiven : GivenBy Hall.reply hall exchanges) (hne : ¬ hall.commons.Same holder handle) :
    Passes hall exchanges handle [] := by
  have hhands : forall exchange, exchange ∈ exchanges ->
      Hands (fun given => ¬ hall.commons.Same given handle) exchange :=
    fun exchange hexchange => (h.hands exchange hexchange).mono fun _ heq => heq ▸ hne
  exact ⟨hhands, fun window hwindow =>
    Hall.window?_stateAfter hwindow hgiven (h.changesOnly hhands).2⟩

theorem passes_known (hall : Hall) (handle : Handle) (value : Nat) :
    Passes hall [⟨.record handle value, ()⟩] handle [value] :=
  ⟨by simp [Hands], fun _ hwindow =>
    Hall.window?_record (hall.commons.same_refl handle) hwindow value⟩

theorem passes_other (hne : ¬ hall.commons.Same holder handle) (value : Nat) :
    Passes hall [⟨.record holder value, ()⟩] handle [] :=
  ⟨by simp [Hands], fun _ hwindow =>
    Hall.window?_reply_of_changesOnly (.record holder value) hwindow hne⟩

theorem Ledger.passes_claim (h : Ledger publisher hall past held)
    (hheld : held scope = some handle)
    (hclaim : Conversation (publisher.window (other.key publisher.role) capacity) exchanges holder)
    (hgiven : GivenBy Hall.reply hall exchanges) (hne : other ≠ scope)
    (hapart : Apart publisher hall.commons scope handle other) :
    update held other (some holder) scope = some handle ∧ Passes hall exchanges handle [] :=
  ⟨(Function.update_of_ne (Ne.symm hne) _ _).trans hheld,
    (Publisher.window_claim hclaim).passes hgiven
      (h.not_same_of_claim hheld hclaim hgiven hapart)⟩

theorem Follows.passes (h : Follows publisher held acts exchanges after)
    (hledger : Ledger publisher hall past held) (hgiven : GivenBy Hall.reply hall exchanges)
    (hheld : held scope = some handle)
    (hclaims : Act.Unclaimed scope acts)
    (hapart : forall act, act ∈ acts -> act.scope ≠ scope ->
      Apart publisher hall.commons scope handle act.scope) :
    Passes hall exchanges handle (Act.samples scope acts) := by
  -- Along the acts the ledger grows, and the scope's own handle stays in it.
  induction h generalizing hall past with
  | done => exact passes_nil
  | @claim held _ other capacity holder claim _ _ hclaim _ ih =>
      rw [Dialogue.givenBy_append] at hgiven
      rw [List.forall_mem_cons] at hapart
      have hne := hclaims.ne_of_claim
      rcases hledger.passes_claim hheld hclaim hgiven.1 hne (hapart.1 hne) with ⟨hkept, hpassed⟩
      refine hpassed.append (ih (hledger.claim hclaim hgiven.1) hgiven.2 hkept hclaims.tail ?_)
      exact fun act hact hother => (hapart.2 act hact hother).stateAfter claim
  | @known held _ other value holder _ _ hother _ ih =>
      rw [List.forall_mem_cons] at hapart
      have hrest := ih (hledger.record holder value) hgiven.2 hheld hclaims.tail
        fun act hact hother =>
          (hapart.2 act hact hother).stateAfter [⟨.record holder value, ()⟩]
      rw [Act.samples]
      by_cases heq : other = scope
      · subst heq
        rw [hheld] at hother
        cases hother
        rw [if_pos rfl]
        exact (passes_known hall handle value).append hrest
      · rw [if_neg heq]
        have hholder := hledger.not_same_of_held hheld hother heq (hapart.1 heq)
        exact (passes_other hholder value).append hrest
  | @first held _ other value holder claim _ _ hnone hclaim _ ih =>
      rw [Dialogue.givenBy_append] at hgiven
      rw [List.forall_mem_cons] at hapart
      -- The scope holds a window already, so this first sample is another's.
      have hne : other ≠ scope := by
        rintro rfl
        rw [hheld] at hnone
        cases hnone
      rcases hledger.passes_claim hheld hclaim hgiven.1 hne (hapart.1 hne) with ⟨hkept, hpassed⟩
      have hrest := ih ((hledger.claim hclaim hgiven.1).record holder value) hgiven.2.2 hkept
        hclaims.tail fun act hact hother =>
          ((hapart.2 act hact hother).stateAfter claim).stateAfter [⟨.record holder value, ()⟩]
      have hholder := hledger.not_same_of_claim hheld hclaim hgiven.1 (hapart.1 hne)
      rw [<- hall.same_stateAfter claim] at hholder
      rw [Act.samples, if_neg hne]
      exact hpassed.append ((passes_other hholder value).append hrest)

/--
Whether a window holds after some exchanges what it held after earlier ones, and then
some values, the latest of all these as far as its capacity goes.
-/
def Fills (hall : Hall) (handle : Handle)
    (earlier exchanges : List (Exchange Question Answer)) (values : List Nat) : Prop :=
  exists held window, (stateAfter Hall.reply hall earlier).window? handle = some held ∧
    (stateAfter Hall.reply hall exchanges).window? handle = some window ∧
    window.capacity = held.capacity ∧
    window.values = (held.values ++ values).rtake held.capacity

theorem Fills.getLast? {earlier exchanges : List (Exchange Question Answer)} {values : List Nat}
    (h : Fills hall handle earlier exchanges values) (hvalues : values ≠ []) :
    ((stateAfter Hall.reply hall exchanges).window? handle).bind
      (fun window => window.values.getLast?) = values.getLast? := by
  rcases h with ⟨held, window, _, hwindow, _, hends⟩
  rcases List.eq_nil_or_concat values with rfl | ⟨front, last, rfl⟩
  · exact absurd rfl hvalues
  · have hroom : held.capacity = held.capacity - 1 + 1 :=
      (Nat.sub_add_cancel held.capacity_pos).symm
    rw [hroom, List.concat_eq_append, <- List.append_assoc, List.rtake_concat_succ] at hends
    rw [hwindow, Option.bind_some, hends, List.concat_eq_append, List.getLast?_concat,
      List.getLast?_concat]

end Metric

end BrokerProbe
