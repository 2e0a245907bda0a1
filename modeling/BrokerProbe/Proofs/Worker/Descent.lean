import BrokerProbe.Proofs.Worker.Step
import Mathlib.Order.WellFounded
/-!
# The steps that are left

A worker with a limit, or one that is asked to stop, cannot go on forever.  Each
step uses up one of the steps that are left, or goes on in a round to what an
answer leaves of it; and a round has an end whatever the answers are.
-/

namespace BrokerProbe

inductive Dialogue.Rest {Question : Type} {Answer : Question -> Type} {Value : Type} :
    Dialogue Question Answer Value -> Dialogue Question Answer Value -> Prop where
  | answered (question : Question)
      (next : Answer question -> Dialogue Question Answer Value) (answer : Answer question) :
      Rest (next answer) (ask question next)

theorem Dialogue.wellFounded_rest {Question : Type} {Answer : Question -> Type} {Value : Type} :
    WellFounded (@Rest Question Answer Value) := by
  constructor
  intro dialogue
  induction dialogue with
  | done value =>
      constructor
      intro rest hrest
      cases hrest
  | ask question next ih =>
      constructor
      intro rest hrest
      cases hrest with
      | answered _ _ answer => exact ih answer

namespace Worker

variable {World : Type}

@[simp] def Stage.stepsLeft : Stage -> Nat
  | ready => 10
  | rounding _ _ => 9
  | reporting _ => 8
  | closing _ => 7
  | judging => 6
  | arriving => 5
  | asleep _ => 4
  | pausing => 3
  | checking => 2
  | leaving => 1
  | resigning _ => 1
  | ended _ => 0

def Stage.lapsLeft (limit rounds : Nat) : Stage -> Nat
  | judging => limit + 1 - rounds
  | arriving => limit - rounds + 1
  | asleep _ => limit - rounds + 1
  | pausing => limit - rounds + 1
  | checking => limit - rounds + 1
  | _ => limit - rounds

def lapsLeft (worker : Worker) : Nat :=
  match worker.limit with
  | some limit => worker.stage.lapsLeft limit worker.rounds
  | none => 0

/-- How many steps a worker has left, not counting the questions of a round. -/
def stepsLeft (worker : Worker) : Nat :=
  11 * worker.lapsLeft + worker.stage.stepsLeft

def Stage.rest : Stage -> Round.Asking Round.Ending
  | rounding rest _ => rest
  | _ => .done .crashed

def Descends (moved worker : Worker) : Prop :=
  Prod.Lex Nat.lt Dialogue.Rest
    (moved.stepsLeft, moved.stage.rest) (worker.stepsLeft, worker.stage.rest)

theorem wellFounded_descends : WellFounded Descends :=
  InvImage.wf (fun worker : Worker => (worker.stepsLeft, worker.stage.rest))
    (WellFounded.prod_lex Nat.lt_wfRel.wf Dialogue.wellFounded_rest)

variable {worker moved : Worker} {floor next : Floor World} {deed? : Option Deed}

theorem descends_of_le (hlaps : moved.lapsLeft <= worker.lapsLeft)
    (hsteps : moved.stage.stepsLeft < worker.stage.stepsLeft) : Descends moved worker := by
  apply Prod.Lex.left
  simp only [stepsLeft]
  exact Nat.add_lt_add_of_le_of_lt (Nat.mul_le_mul_left 11 hlaps) hsteps

theorem lapsLeft_move_le {stage : Stage}
    (h : forall limit rounds, stage.lapsLeft limit rounds <= worker.stage.lapsLeft limit rounds) :
    (worker.move stage).lapsLeft <= worker.lapsLeft := by
  simp only [lapsLeft, move]
  split
  · exact h _ _
  · exact Nat.le_refl 0

theorem descends_move {stage old : Stage} (hstage : worker.stage = old)
    (hlaps : forall limit rounds, stage.lapsLeft limit rounds <= old.lapsLeft limit rounds)
    (hsteps : stage.stepsLeft < old.stepsLeft) : Descends (worker.move stage) worker := by
  subst hstage
  exact descends_of_le (lapsLeft_move_le hlaps) hsteps

theorem lapsLeft_countRound_le (failed : Bool) {closing : Closing}
    (hstage : worker.stage = .closing closing) :
    (worker.countRound failed).lapsLeft <= worker.lapsLeft := by
  simp only [lapsLeft, countRound, hstage]
  split
  · simp only [Stage.lapsLeft]
    omega
  · exact Nat.le_refl 0

theorem lapsLeft_move_arriving_le (hstage : worker.stage = .judging)
    (hgoes : worker.limitReached = false) :
    (worker.move .arriving).lapsLeft <= worker.lapsLeft := by
  cases hlimit : worker.limit with
  | none => simp [lapsLeft, move, hlimit]
  | some limit =>
      have hlt : worker.rounds < limit := by simpa [limitReached, hlimit] using hgoes
      simp only [lapsLeft, move, hlimit, hstage, Stage.lapsLeft]
      omega

theorem descends_move_ready (hstage : worker.stage = .checking)
    (hlimit : worker.limit.isSome = true) : Descends (worker.move .ready) worker := by
  rcases Option.isSome_iff_exists.mp hlimit with ⟨limit, hlimit⟩
  apply Prod.Lex.left
  show (worker.move .ready).stepsLeft < worker.stepsLeft
  simp only [stepsLeft, lapsLeft, move, hlimit, hstage, Stage.lapsLeft, Stage.stepsLeft]
  omega

theorem descends_asked {question : Round.Question}
    {following : Round.Answer question -> Round.Asking Round.Ending}
    {before after : Array Metric.Window} (answer : Round.Answer question)
    (hstage : worker.stage = .rounding (.ask question following) before) :
    Descends (worker.move (.rounding (following answer) after)) worker := by
  apply Prod.Lex.right'
  · simp [stepsLeft, lapsLeft, move, hstage, Stage.lapsLeft, Stage.stepsLeft]
  · rw [hstage]
    exact .answered question following answer

theorem Passage.descends (h : Passage worker floor moved next deed?)
    (hbound : worker.limit.isSome = true ∨ floor.stopping = true) : Descends moved worker := by
  have hsame : forall limit rounds : Nat, limit - rounds <= limit - rounds :=
    fun _ _ => Nat.le_refl _
  have hone : forall limit rounds : Nat, limit - rounds <= limit - rounds + 1 :=
    fun _ _ => Nat.le_succ _
  have hlater : forall limit rounds : Nat, limit - rounds + 1 <= limit - rounds + 1 :=
    fun _ _ => Nat.le_refl _
  have hlast : forall limit rounds : Nat, limit - rounds <= limit + 1 - rounds :=
    fun limit rounds => Nat.sub_le_sub_right (Nat.le_succ limit) rounds
  -- Only a worker that goes on after the pause starts over, and that costs it a lap.
  cases h with
  | unstarted hstage => exact descends_move hstage hsame (by simp)
  | started hstage =>
      have hstarted : Descends
          (worker.move (.rounding (worker.round worker.runs) #[])) worker :=
        descends_move hstage hsame (by simp)
      exact hstarted
  | asked answer hstage => exact descends_asked answer hstage
  | @returned ending _ hstage =>
      cases ending with
      | completed => exact descends_move hstage hsame (by simp [afterRound])
      | refused => exact descends_move hstage hsame (by simp [afterRound])
      | crashed => exact descends_move hstage hsame (by simp [afterRound])
  | reported hstage => exact descends_move hstage hsame (by simp)
  | panicked hstage => exact descends_move hstage hsame (by simp)
  | counted hstage =>
      exact descends_of_le (lapsLeft_countRound_le _ hstage) (by simp [hstage, countRound])
  | last hstage => exact descends_move hstage hlast (by simp)
  | notLast hstage hnot =>
      have hgoes := (Bool.or_eq_false_iff.mp hnot).2
      exact descends_of_le (lapsLeft_move_arriving_le hstage hgoes) (by simp [hstage, move])
  | left hstage => exact descends_move hstage hsame (by simp)
  | leaveRefused hstage => exact descends_move hstage hsame (by simp)
  | advanced hstage => exact descends_move hstage hlater (by simp)
  | slept hstage => exact descends_move hstage hlater (by simp)
  | arriveRefused hstage => exact descends_move hstage hone (by simp)
  | woke hstage => exact descends_move hstage hlater (by simp)
  | paused hstage => exact descends_move hstage hlater (by simp)
  | stopped hstage => exact descends_move hstage hone (by simp)
  | wentOn hstage hstopping =>
      rcases hbound with hlimit | hup
      · exact descends_move_ready hstage hlimit
      · rw [hup] at hstopping
        cases hstopping
  | resigned hstage => exact descends_move hstage hsame (by simp)

end Worker

end BrokerProbe
