import BrokerProbe.Proofs.Worker.Course
/-!
# Limits

As long as nobody asks to stop, a worker with a limit leaves once it has counted
as many rounds as the limit says, but at least one.  How it ends is settled by
how its rounds end, whatever others do.
-/

namespace BrokerProbe

namespace Worker

variable {World : Type}

inductive Fate where
  | passed
  | failed
  | crashed
  deriving DecidableEq, Repr

def Closing.fate (closing : Closing) : Fate :=
  if closing.isCrash then .crashed else if closing.isFailure then .failed else .passed

theorem Closing.fate_eq_crashed {closing : Closing} :
    closing.fate = .crashed <-> closing.isCrash = true := by
  cases hcrash : closing.isCrash <;> cases hfailure : closing.isFailure <;>
    simp [fate, hcrash, hfailure]

theorem Closing.fate_eq_failed {closing : Closing} (h : closing.isCrash = false) :
    closing.fate = .failed <-> closing.isFailure = true := by
  cases hfailure : closing.isFailure <;> simp [fate, h, hfailure]

def Deed.closing? : Deed -> Option Closing
  | ended _ closing => some closing
  | _ => none

def Deed.closings (deeds : List Deed) : List Closing :=
  deeds.filterMap closing?

def Deed.Follow (script : Nat -> Fate) (deeds : List Deed) : Prop :=
  (closings deeds).map Closing.fate = (List.range (closings deeds).length).map script

instance (script : Nat -> Fate) (deeds : List Deed) : Decidable (Deed.Follow script deeds) :=
  inferInstanceAs (Decidable (_ = _))

/-- How a worker with a limit ends whose rounds end as a script says. -/
def forecast (role : Role) (limit : Nat) (script : Nat -> Fate) : Verdict :=
  let fates := (List.range (max 1 limit)).map script
  if .crashed ∈ fates then .panicked
  else
    .finished
      { role
        rounds := max 1 limit
        failedRounds := fates.count .failed
        finalPhase := max 1 limit - 1 }

/-!
# Counting up to the limit
-/

def Stage.WithinLimit (limit rounds : Nat) : Stage -> Prop
  | judging => 0 < rounds ∧ rounds <= max 1 limit
  | leaving => rounds = max 1 limit
  | resigning (.finished _) => rounds = max 1 limit
  | ended (.finished _) => rounds = max 1 limit
  | ended (.rejected _) => True
  | _ => rounds < max 1 limit

variable {worker moved : Worker} {floor next : Floor World} {deed? : Option Deed} {limit : Nat}

theorem Passage.withinLimit (h : Passage worker floor moved next deed?)
    (hdown : floor.stopping = false) (hlimit : worker.limit = some limit)
    (hwithin : worker.stage.WithinLimit limit worker.rounds) :
    moved.stage.WithinLimit limit moved.rounds := by
  cases h with
  | unstarted hstage => rwa [hstage] at hwithin
  | started hstage => rwa [hstage] at hwithin
  | asked _ hstage => rwa [hstage] at hwithin
  | @returned ending _ hstage =>
      rw [hstage] at hwithin
      cases ending with
      | completed => exact hwithin
      | refused => exact hwithin
      | crashed => exact hwithin
  | reported hstage => rwa [hstage] at hwithin
  | panicked hstage => rwa [hstage] at hwithin
  | counted hstage =>
      rw [hstage] at hwithin
      exact ⟨Nat.succ_pos _, hwithin⟩
  | last hstage hlast =>
      rw [hstage] at hwithin
      have hreached : limit <= worker.rounds := by
        simpa [hdown, limitReached, hlimit] using hlast
      exact Nat.le_antisymm hwithin.2 (Nat.max_le.mpr ⟨hwithin.1, hreached⟩)
  | notLast hstage hlast =>
      have hless : worker.rounds < limit := by
        simpa [hdown, limitReached, hlimit] using hlast
      exact Nat.lt_of_lt_of_le hless (Nat.le_max_right 1 limit)
  | left hstage => rwa [hstage] at hwithin
  | leaveRefused => trivial
  | advanced hstage => rwa [hstage] at hwithin
  | slept hstage => rwa [hstage] at hwithin
  | arriveRefused hstage => rwa [hstage] at hwithin
  | woke hstage => rwa [hstage] at hwithin
  | paused hstage => rwa [hstage] at hwithin
  | stopped _ hstopping =>
      rw [hdown] at hstopping
      cases hstopping
  | wentOn hstage => rwa [hstage] at hwithin
  | @resigned verdict hstage =>
      rw [hstage] at hwithin
      cases verdict with
      | finished => exact hwithin
      | rejected => trivial
      | panicked => exact hwithin
      | abandoned => exact hwithin

/-!
# How a worker ends
-/

theorem Deed.closings_laps (phase : Nat) (past : List Closing) :
    closings (laps phase past) = past := by
  induction past generalizing phase with
  | nil => rfl
  | cons closing rest ih =>
      rw [closings, laps, List.filterMap_append]
      exact congrArg (closing :: ·) (ih (phase + 1))

variable {barrier : Barrier} {entry : Nat} {deeds latest : List Deed}
variable {past done : List Closing} {hold : Barrier.Hold} {script : Nat -> Fate}

theorem Course.closings_eq (h : Course barrier worker entry deeds past done latest hold) :
    Deed.closings deeds = past ++ Deed.closings latest := by
  have hpast := Deed.closings_laps entry past
  rw [Deed.closings] at hpast
  rw [h.deeds_eq, Deed.closings, List.cons_append, List.filterMap_cons_none rfl,
    List.filterMap_append, hpast]
  rfl

theorem Deed.Follow.fate_eq {k : Nat} {closing : Closing} (h : Follow script deeds)
    (hclosing : (closings deeds)[k]? = some closing) : script k = closing.fate := by
  have hlt := (List.getElem?_eq_some_iff.mp hclosing).1
  have hsame := congrArg (fun fates => fates[k]?) h
  simpa [List.getElem?_map, hclosing, List.getElem?_range hlt] using hsame.symm

/-!
# What a script makes of a worker
-/

theorem crashed_not_mem {closings : List Closing}
    (h : forall closing, closing ∈ closings -> closing.isCrash = false) :
    Fate.crashed ∉ closings.map Closing.fate := by
  intro hmem
  rcases List.mem_map.mp hmem with ⟨closing, hclosing, hfate⟩
  rw [Closing.fate_eq_crashed, h closing hclosing] at hfate
  cases hfate

theorem count_failed {closings : List Closing}
    (h : forall closing, closing ∈ closings -> closing.isCrash = false) :
    (closings.map Closing.fate).count .failed = closings.countP Closing.isFailure := by
  rw [List.count, List.countP_map]
  apply List.countP_congr
  intro closing hclosing
  have hfate := Closing.fate_eq_failed (h closing hclosing)
  simpa using hfate

theorem forecast_of_uncrashed (role : Role) {closings : List Closing}
    (hfates : (List.range (max 1 limit)).map script = closings.map Closing.fate)
    (h : forall closing, closing ∈ closings -> closing.isCrash = false) :
    forecast role limit script =
      .finished
        { role
          rounds := max 1 limit
          failedRounds := closings.countP Closing.isFailure
          finalPhase := max 1 limit - 1 } := by
  rw [forecast, hfates, if_neg (crashed_not_mem h), count_failed h]

theorem forecast_of_crashed (role : Role) {count : Nat} (hlt : count < max 1 limit)
    (hcrashed : script count = .crashed) : forecast role limit script = .panicked := by
  have hmem : Fate.crashed ∈ (List.range (max 1 limit)).map script :=
    List.mem_map.mpr ⟨count, List.mem_range.mpr hlt, hcrashed⟩
  rw [forecast, if_pos hmem]

theorem OnCourse.verdict_eq_forecast (h : OnCourse barrier worker 0 deeds)
    (hwithin : worker.stage.WithinLimit limit worker.rounds)
    (hended : worker.hasEnded = true) (hkept : worker.isAbandoned = false)
    (hunchecked : Deed.checked true ∉ deeds) (hfollow : Deed.Follow script deeds) :
    worker.verdict? = some (forecast worker.role limit script) := by
  rcases h with ⟨past, done, latest, hold, hcourse⟩
  have hleg := hcourse.leg
  have hclosings := hcourse.closings_eq
  have hrounds := hcourse.rounds_eq
  have hfailed := hcourse.failedRounds_eq
  cases hstage : worker.stage with
  | ended verdict =>
      rw [hstage] at hleg hwithin
      simp only [verdict?, hstage]
      cases hleg with
      | @retired closing hcrash =>
          have hall : Deed.closings deeds = past ++ [closing] := hclosings
          have hmax : (past ++ [closing]).length = max 1 limit := hrounds.symm.trans hwithin
          have huncrashed : forall other, other ∈ past ++ [closing] -> other.isCrash = false := by
            intro other hother
            rcases List.mem_append.mp hother with hpast | hlast
            · exact hcourse.uncrashed other hpast
            · rw [List.mem_singleton.mp hlast]
              exact hcrash
          have hfates : (List.range (max 1 limit)).map script =
              (past ++ [closing]).map Closing.fate := by
            rw [<- hall, hfollow, hall, hmax]
          rw [forecast_of_uncrashed worker.role hfates huncrashed, <- hmax]
          simp [summary, hrounds, hfailed]
      | stopped =>
          -- A worker that nobody stopped never found the flag up after a pause.
          rw [hcourse.deeds_eq] at hunchecked
          simp at hunchecked
      | @crashed closing hcrash =>
          have hlast : (Deed.closings deeds)[past.length]? = some closing := by
            rw [hclosings]
            exact List.getElem?_concat_length
          have hfate := (hfollow.fate_eq hlast).trans (Closing.fate_eq_crashed.mpr hcrash)
          have hlt : past.length < max 1 limit := by
            rw [List.append_nil] at hrounds
            exact hrounds ▸ hwithin
          rw [forecast_of_crashed worker.role hlt hfate]
      | abandoned => simp [isAbandoned, hstage] at hkept
  | _ => simp [hasEnded, verdict?, hstage] at hended

end Worker

end BrokerProbe
