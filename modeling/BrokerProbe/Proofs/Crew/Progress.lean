import BrokerProbe.Proofs.Crew.Account
import BrokerProbe.Proofs.Worker.Descent
import Mathlib.Logic.Hydra
/-!
# Progress of a crew

As long as some worker has not ended, some worker can move: who sleeps waits for
a seat whose owner is awake or can get up.  And a crew cannot move forever if
each of its workers has a limit or is asked to stop, since each move brings one
worker nearer to its end and leaves the others alone.
-/

namespace BrokerProbe

namespace Worker

variable {World : Type} {worker : Worker} {floor : Floor World} {barrier : Barrier}
variable {entry phase : Nat} {verdict : Verdict} {done : List Closing}
variable {deeds latest : List Deed} {hold : Barrier.Hold}

theorem Leg.exists_gone (h : Leg worker phase (.ended verdict) done latest hold) :
    exists last, hold = .gone last := by
  cases h with
  | retired => exact ⟨_, rfl⟩
  | stopped => exact ⟨_, rfl⟩
  | crashed => exact ⟨_, rfl⟩
  | abandoned => exact ⟨_, rfl⟩

theorem OnCourse.standing_of_ended (h : OnCourse barrier worker entry deeds)
    (hended : worker.hasEnded = true) : barrier.standing worker.participant = none := by
  rcases h with ⟨past, done, latest, hold, hcourse⟩
  have hleg := hcourse.leg
  have hhold := hcourse.hold_at
  cases hstage : worker.stage with
  | ended verdict =>
      rw [hstage] at hleg
      rcases hleg.exists_gone with ⟨last, rfl⟩
      exact hhold.1
  | _ => simp [hasEnded, verdict?, hstage] at hended

/-- Whoever the barrier waits for can move. -/
theorem OnCourse.isSome_step? (environment : Environment World)
    (h : OnCourse floor.barrier worker entry deeds) (hsound : floor.barrier.Sound)
    (habsent : floor.barrier.standing worker.participant = some false) :
    (worker.step? environment floor).isSome = true := by
  by_cases hasleep : exists phase, worker.stage = .asleep phase
  · rcases hasleep with ⟨phase, hstage⟩
    rcases h with ⟨past, done, latest, hold, hcourse⟩
    have hleg := hcourse.leg
    have hhold := hcourse.hold_at
    rw [hstage] at hleg
    cases hleg with
    | asleep =>
        have hresume := hsound.resume?_isSome hhold habsent
        rcases Option.isSome_iff_exists.mp hresume with ⟨resumed, hresumed⟩
        simp [step?, hstage, hresumed]
  · apply Worker.isSome_step?
    · intro phase hstage
      exact hasleep ⟨phase, hstage⟩
    · cases hended : worker.hasEnded with
      | false => rfl
      | true =>
          rw [h.standing_of_ended hended] at habsent
          cases habsent

theorem OnCourse.isSome_standing_of_asleep (h : OnCourse barrier worker entry deeds)
    (hstage : worker.stage = .asleep phase) :
    (barrier.standing worker.participant).isSome = true := by
  rcases h with ⟨past, done, latest, hold, hcourse⟩
  have hleg := hcourse.leg
  have hhold := hcourse.hold_at
  rw [hstage] at hleg
  cases hleg with
  | asleep =>
      rcases hhold.2 with ⟨harrived, _⟩ | ⟨habsent, _⟩
      · rw [harrived]
        rfl
      · rw [habsent]
        rfl

end Worker

namespace Record

variable {World : Type} {environment : Environment World} {record next : Record World}

/-!
# Somebody can move
-/

theorem exists_move_of_step {index : Nat} {worker : Worker}
    (hworker : record.crew.workers[index]? = some worker)
    (hstep : (worker.step? environment record.crew.floor).isSome = true) :
    exists index next, record.move? environment index = some next := by
  rcases Option.isSome_iff_exists.mp hstep with ⟨result, hresult⟩
  have hmove : (record.move? environment index).isSome = true := by
    simp [move?, Crew.step?, hworker, hresult]
  exact ⟨index, Option.isSome_iff_exists.mp hmove⟩

theorem Account.exists_owner (h : Account record) {seat : Barrier.Seat}
    (hseat : seat ∈ record.crew.floor.barrier.seats) :
    exists (index : Nat) (worker : Worker), record.crew.workers[index]? = some worker ∧
      record.crew.floor.barrier.standing worker.participant = some seat.arrived := by
  have hstanding := Barrier.standing_of_mem h.sound.nodup hseat
  have howner := h.seated seat.participant (by rw [hstanding]; rfl)
  rcases List.mem_map.mp howner with ⟨worker, hworker, hsame⟩
  rcases List.getElem?_of_mem hworker with ⟨index, hindex⟩
  exact ⟨index, worker, hindex, hsame ▸ hstanding⟩

theorem Account.exists_move_of_seats (h : Account record) (environment : Environment World)
    (hseats : record.crew.floor.barrier.seats ≠ []) :
    exists index next, record.move? environment index = some next := by
  rcases h.sound.exists_absent hseats with ⟨seat, hseat, habsent⟩
  rcases h.exists_owner hseat with ⟨index, worker, hworker, hstanding⟩
  rcases h.course index worker hworker with ⟨entry, hcourse⟩
  rw [habsent] at hstanding
  exact exists_move_of_step hworker (hcourse.isSome_step? environment h.sound hstanding)

theorem Account.exists_move (h : Account record) (environment : Environment World)
    (hlive : record.crew.allEnded = false) :
    exists index next, record.move? environment index = some next := by
  rcases List.all_eq_false.mp hlive with ⟨worker, hworker, hended⟩
  rcases List.getElem?_of_mem hworker with ⟨index, hindex⟩
  by_cases hasleep : exists phase, worker.stage = .asleep phase
  · rcases hasleep with ⟨phase, hstage⟩
    rcases h.course index worker hindex with ⟨entry, hcourse⟩
    rcases Option.isSome_iff_exists.mp (hcourse.isSome_standing_of_asleep hstage) with
      ⟨arrived, hstanding⟩
    have hseat := Barrier.exists_seat_of_standing hstanding
    exact h.exists_move_of_seats environment (List.ne_nil_of_mem hseat)
  · apply exists_move_of_step hindex
    apply Worker.isSome_step?
    · intro phase hstage
      exact hasleep ⟨phase, hstage⟩
    · simpa using hended

theorem Account.seats_of_allEnded (h : Account record) (hended : record.crew.allEnded = true) :
    record.crew.floor.barrier.seats = [] := by
  apply List.eq_nil_iff_forall_not_mem.mpr
  intro seat hseat
  rcases h.exists_owner hseat with ⟨index, worker, hworker, hstanding⟩
  rcases h.course index worker hworker with ⟨entry, hcourse⟩
  have hnone := hcourse.standing_of_ended
    (List.all_eq_true.mp hended worker (List.mem_of_getElem? hworker))
  rw [hstanding] at hnone
  cases hnone

theorem Account.terminated_of_allEnded (h : Account record)
    (hended : record.crew.allEnded = true) (hne : record.crew.workers ≠ []) :
    record.crew.floor.barrier.terminated = true := by
  rcases List.exists_mem_of_ne_nil _ hne with ⟨worker, hworker⟩
  have hused := Nat.zero_lt_of_lt (h.participant_lt worker hworker)
  exact h.sound.terminated_iff.mpr ⟨h.seats_of_allEnded hended, hused⟩

/-!
# Nobody moves forever
-/

/-- Whether each worker has a limit, or is asked to stop. -/
def Bounded (record : Record World) : Prop :=
  forall worker, worker ∈ record.crew.workers ->
    worker.limit.isSome = true ∨ record.crew.floor.stopping = true

theorem Bounded.move (h : Bounded record) {index : Nat}
    (hmove : record.move? environment index = some next) : Bounded next := by
  rcases move?_eq_some hmove with ⟨worker, moved, floor, hworker, hstep, rfl⟩
  have hpassage := Worker.passage_of_step hstep
  intro other hother
  have hold : exists old, old ∈ record.crew.workers ∧ other.limit = old.limit := by
    rcases List.mem_or_eq_of_mem_set hother with hmem | rfl
    · exact ⟨other, hmem, rfl⟩
    · exact ⟨worker, List.mem_of_getElem? hworker, hpassage.limit_eq⟩
  rcases hold with ⟨old, hmem, hlimit⟩
  rcases h old hmem with hsome | hstopping
  · exact Or.inl (hlimit ▸ hsome)
  · exact Or.inr (hpassage.stopping hstopping)

theorem cutExpand_set {workers : List Worker} {index : Nat} {worker moved : Worker}
    (hworker : workers[index]? = some worker) (hdescends : Worker.Descends moved worker) :
    Relation.CutExpand Worker.Descends (workers.set index moved : Multiset Worker)
      (workers : Multiset Worker) := by
  rcases List.getElem?_eq_some_iff.mp hworker with ⟨hlt, heq⟩
  have hset : exists front back, workers = front ++ workers[index] :: back ∧
      front.length = index ∧ workers.set index moved = front ++ moved :: back :=
    List.exists_of_set hlt
  rcases hset with ⟨front, back, hold, _, hnew⟩
  rw [heq] at hold
  refine ⟨{moved}, worker, ?_, ?_⟩
  · intro other hother
    rw [Multiset.mem_singleton.mp hother]
    exact hdescends
  · rw [hnew, hold, <- Multiset.coe_add, <- Multiset.coe_add, <- Multiset.cons_coe,
      <- Multiset.cons_coe, <- Multiset.singleton_add, <- Multiset.singleton_add]
    ac_rfl

theorem Bounded.cutExpand (h : Bounded record) {index : Nat}
    (hmove : record.move? environment index = some next) :
    Relation.CutExpand Worker.Descends (next.crew.workers : Multiset Worker)
      (record.crew.workers : Multiset Worker) := by
  rcases move?_eq_some hmove with ⟨worker, moved, floor, hworker, hstep, rfl⟩
  have hpassage := Worker.passage_of_step hstep
  exact cutExpand_set hworker (hpassage.descends (h worker (List.mem_of_getElem? hworker)))

def moves (schedule : Nat -> Nat) (count : Nat) : List Act :=
  (List.range count).map fun turn => .move (schedule turn)

theorem moves_succ (schedule : Nat -> Nat) (count : Nat) :
    moves schedule (count + 1) =
      .move (schedule 0) :: moves (fun turn => schedule (turn + 1)) count := by
  simp [moves, List.range_succ_eq_map, Function.comp_def]

/-- No schedule keeps a bounded crew moving forever. -/
theorem Bounded.exists_stuck (h : Bounded record) (environment : Environment World)
    (schedule : Nat -> Nat) :
    exists count, record.run? environment (moves schedule count) = none := by
  have hwellFounded := Worker.wellFounded_descends.cutExpand
  -- The induction is on the workers, as what a move replaces one of.
  generalize hworkers : (record.crew.workers : Multiset Worker) = workers
  induction workers using hwellFounded.induction generalizing record schedule with
  | _ workers ih =>
      subst hworkers
      cases hmove : record.move? environment (schedule 0) with
      | none => exact ⟨1, by simp [moves, run?, act?, hmove]⟩
      | some next =>
          rcases ih _ (h.cutExpand hmove) (h.move hmove) (fun turn => schedule (turn + 1)) rfl with
            ⟨count, hcount⟩
          refine ⟨count + 1, ?_⟩
          rw [moves_succ, run?, List.foldlM_cons]
          simp only [act?, hmove, Option.bind_eq_bind, Option.bind_some]
          exact hcount

end Record

end BrokerProbe
