import BrokerProbe.Proofs.Metric.Commons
import BrokerProbe.Proofs.Metric.Handles
/-!
# Metric space with shared instruments

Where a client records when the instruments of the registry may be shared: it is
answered as by the metric space that shows through the keys, and what it does to
an instrument is done under all keys of it.  If nothing is shared, this is the
metric space.
-/

namespace BrokerProbe

namespace Metric

open Dialogue (Exchange GivenBy stateAfter)

def Commons.Same (commons : Commons) : Handle -> Handle -> Prop
  | .published key, .published other => commons.Joint key other
  | .detached number, .detached other => number = other
  | _, _ => False

theorem Commons.same_refl (commons : Commons) (handle : Handle) : commons.Same handle handle := by
  cases handle with
  | published key => exact commons.joint_refl key
  | detached number => rfl

theorem Commons.same_eq_of_joint_eq {commons after : Commons} (h : after.Joint = commons.Joint) :
    after.Same = commons.Same := by
  funext handle other
  cases handle with
  | published key =>
      cases other with
      | published own => exact congrFun (congrFun h key) own
      | detached number => rfl
  | detached number => cases other <;> rfl

/-- The instruments of all, and the windows of one client. -/
structure Hall where
  commons : Commons
  detached : Array Window

namespace Hall

variable {hall : Hall} {question : Question} {handle other : Handle} {held : Window}
variable {key : String} {exchanges : List (Exchange Question Answer)}

def ofCommons (commons : Commons) : Hall :=
  { commons, detached := #[] }

def space (hall : Hall) : Space :=
  { registry := hall.commons.view, detached := hall.detached }

def reply (question : Question) (hall : Hall) : Answer question × Hall :=
  let given := hall.space.reply question
  (given.1, { commons := hall.commons.follow question, detached := given.2.detached })

def run {Value : Type} (hall : Hall) (recording : Recording Value) : Value × Hall :=
  Dialogue.run reply recording hall

def window? (hall : Hall) (handle : Handle) : Option Window :=
  hall.space.window? handle

theorem commons_stateAfter (exchanges : List (Exchange Question Answer)) (hall : Hall) :
    (stateAfter reply hall exchanges).commons =
      hall.commons.followAll (exchanges.map Exchange.question) := by
  induction exchanges generalizing hall with
  | nil => rfl
  | cons exchange rest ih => exact ih _

@[simp] theorem joint_stateAfter (hall : Hall) (exchanges : List (Exchange Question Answer)) :
    (stateAfter reply hall exchanges).commons.Joint = hall.commons.Joint := by
  rw [commons_stateAfter, Commons.joint_followAll]

@[simp] theorem same_stateAfter (hall : Hall) (exchanges : List (Exchange Question Answer)) :
    (stateAfter reply hall exchanges).commons.Same = hall.commons.Same :=
  Commons.same_eq_of_joint_eq (hall.joint_stateAfter exchanges)

theorem space_reply (h : hall.commons.Sole) (question : Question) :
    (hall.reply question).2.space = (hall.space.reply question).2 :=
  congrArg (Space.mk · (hall.space.reply question).2.detached) (h.view_follow rfl question)

/-!
# One window at a time
-/

theorem get?_reply_own (h : question.key? = some key) :
    (hall.reply question).2.space.registry.get? key =
      (hall.space.reply question).2.registry.get? key :=
  (Commons.get?_follow_of_joint h (hall.commons.joint_refl key)).trans
    (Space.get?_reply_own h hall.space).symm

theorem window?_of_granted {capacity : Nat}
    (h : (hall.reply (.window key capacity)).1 = .ok handle) :
    handle = .published key ∧
      exists held, (hall.reply (.window key capacity)).2.window? handle = some held := by
  rcases Space.window?_of_granted h with ⟨rfl, held, hheld⟩
  refine ⟨rfl, held, ?_⟩
  rw [window?, Space.window?_published, get?_reply_own rfl, <- Space.window?_published]
  exact hheld

theorem window?_detach (hall : Hall) (capacity : Nat) :
    (hall.reply (.detach capacity)).2.window? (hall.reply (.detach capacity)).1 =
      some (.empty capacity) :=
  Space.window?_detach hall.space capacity

theorem size_detached_reply (hall : Hall) (question : Question) :
    hall.detached.size <= (hall.reply question).2.detached.size :=
  hall.space.size_detached_reply question

theorem window?_published_iff {text : String} :
    hall.window? (.published text) = some held <->
      hall.commons.view.get? text = some (.window held) := by
  rw [window?, Space.window?_published, Option.bind_eq_some_iff]
  constructor
  · rintro ⟨_ | _, hheld, hwindow⟩
    · cases hwindow
      exact hheld
    · cases hwindow
  · exact fun hheld => ⟨_, hheld, rfl⟩

/-- A window stays where it is, and goes along with what is done under any key of it. -/
theorem window?_reply_of_joint {text : String} (hkey : question.key? = some key)
    (hjoint : hall.commons.Joint key text) (h : hall.window? (.published text) = some held) :
    (hall.reply question).2.window? (.published text) =
      some (question.change (.published key) held) := by
  have heffect := question.effectAt_window key held
  rw [Question.effectAt, if_pos hkey] at heffect
  rw [window?_published_iff] at h ⊢
  have hafter := Commons.get?_follow_of_joint hkey hjoint
  rw [h, heffect] at hafter
  exact hafter

theorem window?_reply_of_not_joint {text : String}
    (hkey : forall key, question.key? = some key -> ¬ hall.commons.Joint key text)
    (h : hall.window? (.published text) = some held) :
    (hall.reply question).2.window? (.published text) = some held := by
  rw [window?_published_iff] at h ⊢
  exact (Commons.get?_follow_of_not_joint hkey).trans h

theorem exists_window?_reply (h : hall.window? handle = some held) (question : Question) :
    exists after, (hall.reply question).2.window? handle = some after := by
  cases handle with
  | detached number => exact ⟨_, Space.window?_reply h question⟩
  | published text =>
      by_cases hjoint : exists key, question.key? = some key ∧ hall.commons.Joint key text
      · rcases hjoint with ⟨key, hkey, hjoint⟩
        exact ⟨_, window?_reply_of_joint hkey hjoint h⟩
      · exact ⟨held, window?_reply_of_not_joint (fun key hkey hown => hjoint ⟨key, hkey, hown⟩) h⟩

theorem window?_reply_of_same (question : Question) (hsame : hall.commons.Same other handle)
    (h : hall.window? handle = some held)
    (hkey : forall key, other = .published key -> question.key? = some key) :
    (hall.reply question).2.window? handle = some (question.change other held) := by
  cases other with
  | detached number =>
      cases handle with
      | published key => exact hsame.elim
      | detached own =>
          obtain rfl : number = own := hsame
          exact Space.window?_reply h question
  | published key =>
      cases handle with
      | detached own => exact hsame.elim
      | published own => exact window?_reply_of_joint (hkey key rfl) hsame h

theorem window?_record (hsame : hall.commons.Same other handle)
    (h : hall.window? handle = some held) (value : Nat) :
    (hall.reply (.record other value)).2.window? handle = some (held.record value) := by
  have hafter := window?_reply_of_same (.record other value) hsame h
    (by rintro _ rfl; rfl)
  rwa [Question.change, if_pos rfl] at hafter

theorem window?_resize (h : hall.window? handle = some held) (capacity : Nat) :
    (hall.reply (.resize handle capacity)).2.window? handle = some (held.resize capacity) := by
  have hafter := window?_reply_of_same (.resize handle capacity)
    (hall.commons.same_refl handle) h (by rintro _ rfl; rfl)
  rwa [Question.change, if_pos rfl] at hafter

theorem window?_reply_of_changesOnly (question : Question) (h : hall.window? handle = some held)
    (hchanges : question.ChangesOnly fun other => ¬ hall.commons.Same other handle) :
    (hall.reply question).2.window? handle = some held := by
  cases handle with
  | detached number =>
      have hothers : question.ChangesOnly fun other => other ≠ .detached number :=
        hchanges.mono fun other hother heq => hother (heq ▸ hall.commons.same_refl _)
      exact (Space.window?_reply h question).trans (congrArg some (hothers.change_eq held))
  | published text =>
      by_cases hjoint : exists key, question.key? = some key ∧ hall.commons.Joint key text
      · rcases hjoint with ⟨key, hkey, hjoint⟩
        have hothers : question.ChangesOnly fun other => other ≠ .published key :=
          hchanges.mono fun other hother heq => hother (heq ▸ hjoint)
        rw [window?_reply_of_joint hkey hjoint h, hothers.change_eq]
      · exact window?_reply_of_not_joint (fun key hkey hown => hjoint ⟨key, hkey, hown⟩) h

theorem window?_stateAfter (h : hall.window? handle = some held)
    (hgiven : GivenBy Hall.reply hall exchanges)
    (hchanges : forall exchange, exchange ∈ exchanges ->
      exchange.question.ChangesOnly fun other => ¬ hall.commons.Same other handle) :
    (stateAfter Hall.reply hall exchanges).window? handle = some held := by
  refine (hgiven.keeps
    (fun after => after.commons.Same = hall.commons.Same ∧ after.window? handle = some held)
    (fun _ => True) ?_ hchanges ⟨rfl, h⟩).2.2
  rintro question after hquestion ⟨hsame, hheld⟩
  rw [<- hsame] at hquestion
  refine ⟨trivial, ?_, window?_reply_of_changesOnly question hheld hquestion⟩
  exact (Commons.same_eq_of_joint_eq (after.commons.joint_follow question)).trans hsame

end Hall

end Metric

end BrokerProbe
