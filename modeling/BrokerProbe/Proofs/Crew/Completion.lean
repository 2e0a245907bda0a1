import BrokerProbe.Proofs.Crew.LockStep
import BrokerProbe.Proofs.Crew.Muster
import BrokerProbe.Proofs.Crew.Progress
import BrokerProbe.Proofs.Worker.Limit
import Mathlib.Order.Bounds.Basic
/-!
# Completion

A crew that gathers first, whose workers all have limits and which nobody stops,
comes to its end in every order of moves.  The verdict on each worker depends on
the limit and the rounds of this worker only, and the barrier closes in the
phase that the worker with the most rounds made it reach.
-/

namespace BrokerProbe

namespace Worker

variable {World : Type} {worker moved : Worker} {floor next : Floor World} {deed? : Option Deed}
variable {barrier : Barrier} {stage : Stage} {entry phase : Nat} {deeds latest : List Deed}
variable {past done : List Closing} {hold : Barrier.Hold}

theorem Leg.refused_not_mem (h : Leg worker phase stage done latest hold) (error : BarrierError) :
    Deed.refused error ∉ latest := by
  cases h <;> simp

theorem OnCourse.refused_not_mem (h : OnCourse barrier worker entry deeds) (error : BarrierError) :
    Deed.refused error ∉ deeds := by
  rcases h with ⟨past, done, latest, hold, hcourse⟩
  intro hmem
  rcases hcourse.mem_deeds hmem with heq | ⟨lapPhase, closing, hlap⟩ | hlatest
  · cases heq
  · simp [Deed.lap] at hlap
  · exact hcourse.leg.refused_not_mem error hlatest

theorem OnCourse.phase_of_isCall (h : OnCourse barrier worker entry deeds)
    (hcall : worker.stage.isCall = true) (hkept : worker.isAbandoned = false)
    (hunchecked : Deed.checked true ∉ deeds) :
    barrier.phase + 1 = entry + (deeds.filterMap Deed.began?).length := by
  rcases h with ⟨past, done, latest, hold, hcourse⟩
  have hleg := hcourse.leg
  cases hstage : worker.stage with
  | leaving =>
      rw [hstage] at hleg
      cases hleg with
      | retiring => exact hcourse.phase_of_began rfl
      | stopping =>
          rw [hcourse.deeds_eq] at hunchecked
          simp at hunchecked
  | arriving =>
      rw [hstage] at hleg
      cases hleg with
      | arriving => exact hcourse.phase_of_began rfl
  | resigning verdict =>
      rw [hstage] at hleg
      cases hleg with
      | crashing => exact hcourse.phase_of_began rfl
      | abandoning => simp [isAbandoned, hstage] at hkept
  | _ =>
      rw [hstage] at hcall
      cases hcall

theorem OnCourse.length_began_le (h : OnCourse barrier worker entry deeds)
    (hended : worker.hasEnded = true) (hempty : barrier.seats = []) :
    entry + (deeds.filterMap Deed.began?).length <= barrier.phase := by
  rcases h with ⟨past, done, latest, hold, hcourse⟩
  have hleg := hcourse.leg
  have hhold := hcourse.hold_at
  rw [hcourse.length_began, <- Nat.add_assoc]
  cases hstage : worker.stage with
  | ended verdict =>
      rw [hstage] at hleg
      cases hleg with
      | retired => exact hhold.2.2 hempty
      | stopped => exact Nat.le_of_lt (hhold.2.2 hempty)
      | crashed => exact hhold.2.2 hempty
      | abandoned => exact Nat.le_of_lt (hhold.2.2 hempty)
  | _ => simp [hasEnded, verdict?, hstage] at hended

end Worker

namespace Record

open Worker (Deed OnCourse Fate forecast)

variable {World : Type} {environment : Environment World} {record next : Record World}
variable {recruits : List Recruit}

structure Undisturbed (record : Record World) : Prop where
  within : forall worker limit, worker ∈ record.crew.workers -> worker.limit = some limit ->
    worker.stage.WithinLimit limit worker.rounds
  unchecked : forall index, (index, .checked true) ∉ record.log
  reached : exists index, index < record.crew.workers.length ∧
    record.crew.floor.barrier.phase <= (record.starts index).length

theorem Fresh.undisturbed (h : Fresh recruits record) (hne : record.crew.workers ≠ []) :
    Undisturbed record where
  within := by
    intro worker limit hworker _
    rcases h.ready worker hworker with ⟨hstage, hrounds⟩
    rw [hstage, hrounds]
    exact Nat.lt_of_lt_of_le Nat.zero_lt_one (Nat.le_max_left 1 limit)
  unchecked := by
    intro index hmem
    cases h.log_eq index _ hmem
  reached := by
    refine ⟨0, List.length_pos_iff.mpr hne, ?_⟩
    rw [h.phase_eq]
    exact Nat.zero_le _

theorem starts_length_le {more : List (Nat × Deed)} (hlog : next.log = record.log ++ more)
    (index : Nat) : (record.starts index).length <= (next.starts index).length := by
  rw [starts, starts, deeds, deeds, hlog, entriesOf_append, List.filterMap_append,
    List.length_append]
  exact Nat.le_add_right _ _

theorem Undisturbed.move (h : Undisturbed record) (hmustered : Mustered recruits record)
    (hdown : record.crew.floor.stopping = false) {index : Nat}
    (hmove : record.move? environment index = some next) : Undisturbed next := by
  rcases move?_eq_some hmove with ⟨worker, moved, floor, hworker, hstep, rfl⟩
  have hmem := List.mem_of_getElem? hworker
  have hpassage := Worker.passage_of_step hstep
  refine ⟨?_, ?_, ?_⟩
  · intro other limit hother hlimit
    rcases List.mem_or_eq_of_mem_set hother with hold | rfl
    · exact h.within other limit hold hlimit
    · rw [hpassage.limit_eq] at hlimit
      exact hpassage.withinLimit hdown hlimit (h.within worker limit hmem hlimit)
  · intro other hchecked
    rcases List.mem_append.mp hchecked with hold | hnew
    · exact h.unchecked other hold
    · rcases List.mem_map.mp hnew with ⟨deed, hdeed, heq⟩
      cases heq
      have hfits : true = record.crew.floor.stopping :=
        Worker.Deed.fits_of_deed? (Option.mem_toList.mp hdeed)
      rw [hdown] at hfits
      cases hfits
  · rcases hpassage.phase_eq with hsame | ⟨hcall, _, hnext⟩
    · rcases h.reached with ⟨farthest, hlt, hle⟩
      refine ⟨farthest, by rwa [List.length_set], ?_⟩
      exact Nat.le_trans (hsame ▸ hle) (starts_length_le rfl farthest)
    · have hlt := (List.getElem?_eq_some_iff.mp hworker).1
      refine ⟨index, by rwa [List.length_set], ?_⟩
      have hphase := (hmustered.course hworker).phase_of_isCall hcall
        (hmustered.kept worker hmem) (fun hdeed => h.unchecked index (mem_entriesOf.mp hdeed))
      rw [Nat.zero_add, <- hnext] at hphase
      exact Nat.le_trans (Nat.le_of_eq hphase) (starts_length_le rfl index)

theorem Undisturbed.run (h : Undisturbed record) (hmustered : Mustered recruits record)
    {indices : List Nat} (hrun : record.run? environment (indices.map .move) = some next)
    (hdown : next.crew.floor.stopping = false) : Undisturbed next := by
  have hkept : next.crew.floor.stopping = true ∨
      Undisturbed next ∧ Mustered recruits next := by
    apply run?_keeps _ (Or.inr ⟨h, hmustered⟩) hrun
    intro first second act hact hfirst hmove
    rcases List.mem_map.mp hact with ⟨index, _, rfl⟩
    rcases hfirst with hup | ⟨hundisturbed, hmustered⟩
    · exact Or.inl (stopping_act hup hmove)
    · cases hflag : first.crew.floor.stopping with
      | true => exact Or.inl (stopping_act hflag hmove)
      | false =>
          exact Or.inr ⟨hundisturbed.move hmustered hflag hmove, hmustered.move hmove⟩
  rcases hkept with hup | ⟨hundisturbed, _⟩
  · rw [hup] at hdown
    cases hdown
  · exact hundisturbed

/-- Whether the rounds of each worker that ended did so as its script says. -/
def Follows (record : Record World) (script : Nat -> Nat -> Fate) : Prop :=
  forall index, index < record.crew.workers.length ->
    Deed.Follow (script index) (record.deeds index)

theorem Mustered.bounded (h : Mustered recruits record)
    (hlimits : forall recruit, recruit ∈ recruits -> recruit.limit.isSome = true) :
    Bounded record := by
  intro worker hworker
  rcases h.exists_recruit hworker with ⟨recruit, hrecruit, hlimit⟩
  exact Or.inl (hlimit ▸ hlimits recruit hrecruit)

theorem Mustered.refused_not_mem (h : Mustered recruits record) (index : Nat)
    (error : BarrierError) : (index, .refused error) ∉ record.log := by
  intro hmem
  have hlt := h.account.index_lt _ hmem
  have hcourse := h.course (List.getElem?_eq_getElem hlt)
  exact hcourse.refused_not_mem error (mem_entriesOf.mpr hmem)

theorem Undisturbed.verdict_eq (h : Undisturbed record) (hmustered : Mustered recruits record)
    (hended : record.crew.allEnded = true) {script : Nat -> Nat -> Fate}
    (hfollows : record.Follows script) {index limit : Nat} {recruit : Recruit}
    (hrecruit : recruits[index]? = some recruit) (hlimit : recruit.limit = some limit) :
    (record.crew.workers[index]?).bind Worker.verdict? =
      some (forecast recruit.role limit (script index)) := by
  rcases hmustered.exists_worker hrecruit with ⟨worker, hworker, hrole, hsame⟩
  have hmem := List.mem_of_getElem? hworker
  rw [hworker, Option.bind_some, <- hrole]
  apply (hmustered.course hworker).verdict_eq_forecast
  · exact h.within worker limit hmem (hsame.trans hlimit)
  · exact List.all_eq_true.mp hended worker hmem
  · exact hmustered.kept worker hmem
  · exact fun hdeed => h.unchecked index (mem_entriesOf.mp hdeed)
  · exact hfollows index (List.getElem?_eq_some_iff.mp hworker).1

theorem Undisturbed.isGreatest_phase (h : Undisturbed record)
    (hmustered : Mustered recruits record) (hended : record.crew.allEnded = true) :
    IsGreatest
      { count | exists index, index < recruits.length ∧ (record.starts index).length = count }
      record.crew.floor.barrier.phase := by
  have hbound : forall index, index < recruits.length ->
      (record.starts index).length <= record.crew.floor.barrier.phase := by
    intro index hindex
    rw [<- hmustered.length_eq] at hindex
    have hworker := List.getElem?_eq_getElem hindex
    have hle := (hmustered.course hworker).length_began_le
      (List.all_eq_true.mp hended _ (List.mem_of_getElem? hworker))
      (hmustered.account.seats_of_allEnded hended)
    rwa [Nat.zero_add] at hle
  constructor
  · rcases h.reached with ⟨index, hlt, hle⟩
    rw [hmustered.length_eq] at hlt
    exact ⟨index, hlt, Nat.le_antisymm (hbound index hlt) hle⟩
  · rintro count ⟨index, hindex, rfl⟩
    exact hbound index hindex

instance (record : Record World) (script : Nat -> Nat -> Fate) :
    Decidable (record.Follows script) :=
  inferInstanceAs (Decidable (forall index, index < record.crew.workers.length ->
    Deed.Follow (script index) (record.deeds index)))

theorem exists_follows (record : Record World) : exists script, record.Follows script := by
  refine ⟨fun index k =>
    (((Deed.closings (record.deeds index))[k]?).map Worker.Closing.fate).getD .passed, ?_⟩
  intro index _
  apply List.ext_getElem
  · simp
  · intro k hleft hright
    rw [List.length_map] at hleft
    simp [hleft]

/--
What becomes of a crew whose rounds end as a script says.  It can move until all
have ended, and not forever, and the barrier refuses nobody.  In the end each
verdict is the forecast, and the barrier is closed and empty; its phase is the
number of rounds that the worker with the most of them began.
-/
structure Completion (environment : Environment World) (recruits : List Recruit)
    (script : Nat -> Nat -> Fate) (record : Record World) : Prop where
  progress : record.crew.allEnded = false ->
    exists index next, record.move? environment index = some next
  finite : forall schedule, exists count, record.run? environment (moves schedule count) = none
  unrefused : forall index error, (index, .refused error) ∉ record.log
  verdicts : record.crew.allEnded = true ->
    forall index recruit limit, recruits[index]? = some recruit -> recruit.limit = some limit ->
      (record.crew.workers[index]?).bind Worker.verdict? =
        some (forecast recruit.role limit (script index))
  closed : record.crew.allEnded = true ->
    record.crew.floor.barrier.terminated = true ∧ record.crew.floor.barrier.seats = []
  phase : record.crew.allEnded = true ->
    IsGreatest
      { count | exists index, index < recruits.length ∧ (record.starts index).length = count }
      record.crew.floor.barrier.phase

/-- A crew that gathers first, has limits and is never asked to stop completes. -/
theorem completes (environment : Environment World) (world : World) (recruits : List Recruit)
    (hne : recruits ≠ [])
    (hlimits : forall recruit, recruit ∈ recruits -> recruit.limit.isSome = true)
    (indices : List Nat)
    (hrun : (gather world recruits).run? environment (indices.map .move) = some record)
    (hdown : record.crew.floor.stopping = false)
    (script : Nat -> Nat -> Fate) (hfollows : record.Follows script) :
    Completion environment recruits script record := by
  have hfresh := fresh_gather world recruits
  have hkeeps : forall act, act ∈ indices.map Act.move -> act.keepsCrew = true := by
    intro act hact
    rcases List.mem_map.mp hact with ⟨index, _, rfl⟩
    rfl
  have hmustered := hfresh.toMustered.run hkeeps hrun
  have hgathered := hfresh.toMustered.workers_ne_nil hne
  have hundisturbed := (hfresh.undisturbed hgathered).run hfresh.toMustered hrun hdown
  refine ⟨hmustered.account.exists_move environment, ?_, hmustered.refused_not_mem, ?_, ?_, ?_⟩
  · exact (hmustered.bounded hlimits).exists_stuck environment
  · intro hended index recruit limit hrecruit hlimit
    exact hundisturbed.verdict_eq hmustered hended hfollows hrecruit hlimit
  · intro hended
    exact ⟨hmustered.account.terminated_of_allEnded hended (hmustered.workers_ne_nil hne),
      hmustered.account.seats_of_allEnded hended⟩
  · exact hundisturbed.isGreatest_phase hmustered

def crashing : List Recruit :=
  [rehearsed .consumer (some 2) [.refuseAddress],
    rehearsed .metadata (some 5) [.succeed, .crash]]

def crashingScript (index k : Nat) : Fate :=
  if index = 0 ∧ k = 0 then .failed
  else if index = 1 ∧ k = 1 then .crashed
  else .passed

theorem completes_crashing :
    exists record,
      (gather emptySite crashing).run? Simulated.Site.environment
        ((List.replicate 6 0 ++ List.replicate 6 1 ++ List.replicate 9 0 ++
          List.replicate 6 1).map .move) = some record ∧
      record.crew.allEnded = true ∧
      Completion Simulated.Site.environment crashing crashingScript record := by
  have hcheck : ((gather emptySite crashing).run? Simulated.Site.environment
      ((List.replicate 6 0 ++ List.replicate 6 1 ++ List.replicate 9 0 ++
        List.replicate 6 1).map .move)).any (fun record =>
          record.crew.allEnded && !record.crew.floor.stopping &&
            decide (record.Follows crashingScript)) = true := by decide +kernel
  rcases (Option.any_eq_true _ _).mp hcheck with ⟨record, hrun, hfacts⟩
  simp only [Bool.and_eq_true, Bool.not_eq_true', decide_eq_true_eq] at hfacts
  rcases hfacts with ⟨⟨hended, hdown⟩, hfollows⟩
  have hlimits : forall recruit, recruit ∈ crashing -> recruit.limit.isSome = true := by
    intro recruit hrecruit
    simp only [crashing, List.mem_cons, List.not_mem_nil, or_false] at hrecruit
    rcases hrecruit with rfl | rfl
    · rfl
    · rfl
  exact ⟨record, hrun, hended, completes Simulated.Site.environment emptySite crashing
    (List.cons_ne_nil _ _) hlimits _ hrun hdown crashingScript hfollows⟩

end Record

end BrokerProbe
