import BrokerProbe.Proofs.Crew.Account
/-!
# Crews that gather first

All workers take their seats at a new barrier before any of them moves.  From
then on nobody joins and nobody is dropped; the workers move, and the flag may
be raised.  All have their first lap in the first phase.
-/

namespace BrokerProbe

namespace Record

open Worker (Deed OnCourse)

variable {World : Type} {environment : Environment World} {record next : Record World}
variable {recruits : List Recruit}

def Act.keepsCrew : Act -> Bool
  | stop => true
  | move _ => true
  | _ => false

/-- Workers that have joined, one after the other, and not moved. -/
def gather (world : World) (recruits : List Recruit) : Record World :=
  recruits.foldl join (ofWorld world)

structure Mustered (recruits : List Recruit) (record : Record World) : Prop where
  account : Account record
  terms : record.crew.workers.map (fun worker => (worker.role, worker.limit)) =
    recruits.map fun recruit => (recruit.role, recruit.limit)
  joined : forall index, index < record.crew.workers.length -> (index, .joined 0) ∈ record.log
  kept : forall worker, worker ∈ record.crew.workers -> worker.isAbandoned = false

structure Fresh (recruits : List Recruit) (record : Record World) : Prop
    extends Mustered recruits record where
  phase_eq : record.crew.floor.barrier.phase = 0
  terminated_eq : record.crew.floor.barrier.terminated = false
  stopping_eq : record.crew.floor.stopping = false
  log_eq : forall index deed, (index, deed) ∈ record.log -> deed = .joined 0
  ready : forall worker, worker ∈ record.crew.workers -> worker.stage = .ready ∧ worker.rounds = 0

theorem fresh_ofWorld (world : World) : Fresh [] (ofWorld world) where
  account := account_ofWorld world
  terms := rfl
  joined := by
    intro index hindex
    exact absurd hindex (Nat.not_lt_zero index)
  kept := by
    intro worker hworker
    cases hworker
  phase_eq := rfl
  terminated_eq := rfl
  stopping_eq := rfl
  log_eq := by
    intro index deed hdeed
    cases hdeed
  ready := by
    intro worker hworker
    cases hworker

theorem Fresh.join (h : Fresh recruits record) (recruit : Recruit) :
    Fresh (recruits ++ [recruit]) (record.join recruit) := by
  have haccount := h.account.join recruit
  have hjoin := join_eq record recruit
  rw [if_neg (by simp [h.terminated_eq]), h.phase_eq] at hjoin
  rw [hjoin] at haccount ⊢
  refine ⟨⟨haccount, ?_, ?_, ?_⟩, h.phase_eq, h.terminated_eq, h.stopping_eq, ?_, ?_⟩
  · simp only [List.map_append, h.terms]
    rfl
  · intro index hindex
    simp only [List.length_append, List.length_singleton] at hindex
    rcases Nat.lt_succ_iff_lt_or_eq.mp hindex with hlt | heq
    · exact List.mem_append_left _ (h.joined index hlt)
    · exact List.mem_append_right _ (by simp [heq])
  · intro worker hworker
    rcases List.mem_append.mp hworker with hold | hnew
    · exact h.kept worker hold
    · rw [List.mem_singleton.mp hnew]
      rfl
  · intro index deed hdeed
    rcases List.mem_append.mp hdeed with hold | hnew
    · exact h.log_eq index deed hold
    · cases List.mem_singleton.mp hnew
      rfl
  · intro worker hworker
    rcases List.mem_append.mp hworker with hold | hnew
    · exact h.ready worker hold
    · rw [List.mem_singleton.mp hnew]
      exact ⟨rfl, rfl⟩

theorem fresh_gather (world : World) (recruits : List Recruit) :
    Fresh recruits (gather world recruits) := by
  induction recruits using List.reverseRecOn with
  | nil => exact fresh_ofWorld world
  | append_singleton front recruit ih =>
      rw [gather, List.foldl_append]
      exact ih.join recruit

/-!
# What goes on
-/

theorem Mustered.stop (h : Mustered recruits record) :
    Mustered recruits { record with crew := record.crew.requestStop } where
  account := h.account.stop
  terms := h.terms
  joined := h.joined
  kept := h.kept

theorem Mustered.move (h : Mustered recruits record) {index : Nat}
    (hmove : record.move? environment index = some next) : Mustered recruits next := by
  have haccount := h.account.move hmove
  rcases move?_eq_some hmove with ⟨worker, moved, floor, hworker, hstep, rfl⟩
  have hpassage := Worker.passage_of_step hstep
  refine ⟨haccount, ?_, ?_, ?_⟩
  · rw [<- h.terms]
    apply map_set_eq _ hworker
    rw [hpassage.role_eq, hpassage.limit_eq]
  · intro other hother
    rw [List.length_set] at hother
    exact List.mem_append_left _ (h.joined other hother)
  · intro other hother
    rcases List.mem_or_eq_of_mem_set hother with hmem | rfl
    · exact h.kept other hmem
    · exact hpassage.isAbandoned_eq_false (h.kept worker (List.mem_of_getElem? hworker))

theorem Mustered.act (h : Mustered recruits record) {act : Act} (hkeeps : act.keepsCrew = true)
    (hact : record.act? environment act = some next) : Mustered recruits next := by
  cases act with
  | join => cases hkeeps
  | abandon => cases hkeeps
  | stop =>
      cases hact
      exact h.stop
  | move index => exact h.move hact

theorem Mustered.run (h : Mustered recruits record) {acts : List Act}
    (hkeeps : forall act, act ∈ acts -> act.keepsCrew = true)
    (hrun : record.run? environment acts = some next) : Mustered recruits next := by
  apply run?_keeps _ h hrun
  intro first second act hmem hmustered hact
  exact hmustered.act (hkeeps act hmem) hact

theorem Mustered.length_eq (h : Mustered recruits record) :
    record.crew.workers.length = recruits.length := by
  have hlength := congrArg List.length h.terms
  rwa [List.length_map, List.length_map] at hlength

theorem Mustered.workers_ne_nil (h : Mustered recruits record) (hne : recruits ≠ []) :
    record.crew.workers ≠ [] := by
  rw [<- List.length_pos_iff, h.length_eq]
  exact List.length_pos_iff.mpr hne

theorem Mustered.exists_worker (h : Mustered recruits record) {index : Nat} {recruit : Recruit}
    (hrecruit : recruits[index]? = some recruit) :
    exists worker, record.crew.workers[index]? = some worker ∧ worker.role = recruit.role ∧
      worker.limit = recruit.limit := by
  have hsame := congrArg (fun terms => terms[index]?) h.terms
  simp only [List.getElem?_map, hrecruit, Option.map_some, Option.map_eq_some_iff,
    Prod.mk.injEq] at hsame
  exact hsame

theorem Mustered.exists_recruit (h : Mustered recruits record) {worker : Worker}
    (hworker : worker ∈ record.crew.workers) :
    exists recruit, recruit ∈ recruits ∧ worker.limit = recruit.limit := by
  have hterms := List.mem_map_of_mem (f := fun worker => (worker.role, worker.limit)) hworker
  rw [h.terms] at hterms
  rcases List.mem_map.mp hterms with ⟨recruit, hrecruit, heq⟩
  exact ⟨recruit, hrecruit, (congrArg Prod.snd heq).symm⟩

theorem Mustered.course (h : Mustered recruits record) {index : Nat} {worker : Worker}
    (hworker : record.crew.workers[index]? = some worker) :
    OnCourse record.crew.floor.barrier worker 0 (record.deeds index) := by
  rcases h.account.course index worker hworker with ⟨entry, hcourse⟩
  have hjoined := h.joined index (List.getElem?_eq_some_iff.mp hworker).1
  rw [hcourse.eq_entry (mem_entriesOf.mpr hjoined)]
  exact hcourse

end Record

end BrokerProbe
