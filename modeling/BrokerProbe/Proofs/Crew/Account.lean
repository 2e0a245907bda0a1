import BrokerProbe.Proofs.Crew.Record
import Mathlib.Data.List.Induction
/-!
# The account of a crew

What holds of every record, whatever happened: the barrier is sound, every
worker is on its course, each has a seat number of its own, and no seat is held
by anyone else.
-/

namespace BrokerProbe

namespace Record

open Worker (Deed OnCourse Passage)

variable {World : Type}

/-- What holds of a record after anything that can happen. -/
structure Account (record : Record World) : Prop where
  sound : record.crew.floor.barrier.Sound
  course : forall index worker, record.crew.workers[index]? = some worker ->
    exists entry, OnCourse record.crew.floor.barrier worker entry (record.deeds index)
  distinct : (record.crew.workers.map Worker.participant).Nodup
  participant_lt : forall worker, worker ∈ record.crew.workers ->
    worker.participant < record.crew.floor.barrier.nextParticipant
  seated : forall participant, (record.crew.floor.barrier.standing participant).isSome = true ->
    participant ∈ record.crew.workers.map Worker.participant
  index_lt : forall entry, entry ∈ record.log -> entry.1 < record.crew.workers.length

theorem account_ofWorld (world : World) : Account (ofWorld world) where
  sound := Barrier.sound_new
  course := by
    intro index worker hworker
    cases hworker
  distinct := List.nodup_nil
  participant_lt := by
    intro worker hworker
    cases hworker
  seated := by
    intro participant h
    cases h
  index_lt := by
    intro entry hentry
    cases hentry

variable {environment : Environment World} {record next : Record World}

theorem Account.participant_ne (h : Account record) {index other : Nat}
    {worker another : Worker} (hworker : record.crew.workers[index]? = some worker)
    (hanother : record.crew.workers[other]? = some another) (hne : other ≠ index) :
    another.participant ≠ worker.participant := by
  intro heq
  have hlength : other < (record.crew.workers.map Worker.participant).length := by
    rw [List.length_map]
    exact (List.getElem?_eq_some_iff.mp hanother).1
  have hsame : (record.crew.workers.map Worker.participant)[other]? =
      (record.crew.workers.map Worker.participant)[index]? := by
    rw [List.getElem?_map, List.getElem?_map, hworker, hanother, Option.map_some,
      Option.map_some, heq]
  exact hne ((List.getElem?_inj hlength h.distinct).mp hsame)

theorem Account.deeds_length (h : Account record) :
    record.deeds record.crew.workers.length = [] := by
  simp only [deeds, entriesOf, List.map_eq_nil_iff, List.filter_eq_nil_iff]
  intro entry hentry
  simpa using Nat.ne_of_lt (h.index_lt entry hentry)

/-!
# Joining
-/

theorem getElem?_append_singleton {workers : List Worker} {joined worker : Worker} {index : Nat}
    (h : (workers ++ [joined])[index]? = some worker) :
    workers[index]? = some worker ∨ index = workers.length ∧ worker = joined := by
  rcases Nat.lt_or_ge index workers.length with hlt | hge
  · rw [List.getElem?_append_left hlt] at h
    exact Or.inl h
  · rw [List.getElem?_append_right hge] at h
    rcases List.getElem?_eq_some_iff.mp h with ⟨hlt, heq⟩
    have hzero : index - workers.length = 0 := by simpa using hlt
    simp only [hzero, List.getElem_cons_zero] at heq
    exact Or.inr ⟨by omega, heq.symm⟩

theorem Account.join (h : Account record) (recruit : Recruit) :
    Account (record.join recruit) := by
  rw [join_eq]
  cases hclosed : record.crew.floor.barrier.terminated with
  | true => exact h
  | false =>
      have heffect := Barrier.Effect.enlisted hclosed
      -- The newcomer is at the end of the list; nobody else is touched.
      refine ⟨h.sound.enlist hclosed, ?_, ?_, ?_, ?_, ?_⟩
      · intro index worker hworker
        simp only [deeds, Bool.false_eq_true, if_false, entriesOf_append]
        rcases getElem?_append_singleton hworker with hold | ⟨rfl, rfl⟩
        · rcases h.course index worker hold with ⟨entry, hcourse⟩
          have hne : index ≠ record.crew.workers.length :=
            Nat.ne_of_lt (List.getElem?_eq_some_iff.mp hold).1
          have hspares := Nat.ne_of_lt (h.participant_lt worker (List.mem_of_getElem? hold))
          have hnone := entriesOf_map_of_ne hne
            [Deed.joined record.crew.floor.barrier.phase]
          rw [List.map_singleton] at hnone
          rw [hnone, List.append_nil]
          exact ⟨entry, hcourse.effect heffect hspares⟩
        · have hdeeds := h.deeds_length
          have hself := entriesOf_map_self record.crew.workers.length
            [Deed.joined record.crew.floor.barrier.phase]
          rw [List.map_singleton] at hself
          rw [deeds] at hdeeds
          rw [hdeeds, hself]
          exact ⟨_, Worker.onCourse_seated _ _ _ _ h.sound.hold_enlist⟩
      · simp only [Bool.false_eq_true, if_false, List.map_append, List.map_singleton]
        apply List.Nodup.append h.distinct (List.nodup_singleton _)
        intro participant hold hnew
        rcases List.mem_map.mp hold with ⟨worker, hworker, heq⟩
        have hlt := h.participant_lt worker hworker
        rw [heq, List.mem_singleton.mp hnew] at hlt
        exact Nat.lt_irrefl _ hlt
      · intro worker hworker
        rcases List.mem_append.mp hworker with hold | hnew
        · exact Nat.lt_succ_of_lt (h.participant_lt worker hold)
        · rw [List.mem_singleton.mp hnew]
          exact Nat.lt_succ_self _
      · intro participant hsome
        simp only [Bool.false_eq_true, if_false, List.map_append, List.map_singleton]
        rcases Barrier.isSome_standing_effect heffect hsome with hold | ⟨_, heq⟩
        · exact List.mem_append_left _ (h.seated participant hold)
        · rw [heq]
          exact List.mem_append_right _ (List.mem_singleton_self _)
      · intro entry hentry
        simp only [Bool.false_eq_true, if_false, List.length_append, List.length_singleton]
        rcases List.mem_append.mp hentry with hold | hnew
        · exact Nat.lt_succ_of_lt (h.index_lt entry hold)
        · rw [List.mem_singleton.mp hnew]
          exact Nat.lt_succ_self _

/-!
# Moving
-/

theorem map_set_eq {Value : Type} (value : Worker -> Value) {workers : List Worker} {index : Nat}
    {worker moved : Worker} (hworker : workers[index]? = some worker)
    (hsame : value moved = value worker) :
    (workers.set index moved).map value = workers.map value := by
  rw [List.map_set, hsame]
  apply List.ext_getElem?
  intro other
  rw [List.getElem?_set]
  split
  · next heq =>
    rw [<- heq, List.getElem?_map, hworker]
    have hlt := (List.getElem?_eq_some_iff.mp hworker).1
    simp [hlt]
  · rfl

theorem Account.abandon (h : Account record) {index : Nat}
    (habandon : record.abandon? index = some next) : Account next := by
  rcases abandon?_eq_some habandon with ⟨worker, hworker, hstage, _, rfl⟩
  have hparticipants : (record.crew.workers.set index worker.abandon).map Worker.participant =
      record.crew.workers.map Worker.participant := map_set_eq Worker.participant hworker rfl
  refine ⟨h.sound, ?_, ?_, ?_, ?_, ?_⟩
  · intro other another hanother
    simp only [List.getElem?_set] at hanother
    split at hanother
    · next heq =>
      rcases h.course index worker hworker with ⟨entry, hcourse⟩
      split at hanother
      · cases hanother
        rw [<- heq]
        exact ⟨entry, hcourse.abandon hstage⟩
      · cases hanother
    · exact h.course other another hanother
  · simp only [hparticipants]
    exact h.distinct
  · intro another hanother
    have hmem := List.mem_map_of_mem (f := Worker.participant) hanother
    simp only [hparticipants] at hmem
    rcases List.mem_map.mp hmem with ⟨old, hold, heq⟩
    rw [<- heq]
    exact h.participant_lt old hold
  · simp only [hparticipants]
    exact h.seated
  · simp only [List.length_set]
    exact h.index_lt

theorem Account.move (h : Account record) {index : Nat}
    (hmove : record.move? environment index = some next) : Account next := by
  rcases move?_eq_some hmove with ⟨worker, moved, floor, hworker, hstep, rfl⟩
  have hpassage := Worker.passage_of_step hstep
  have hparticipants : (record.crew.workers.set index moved).map Worker.participant =
      record.crew.workers.map Worker.participant :=
    map_set_eq Worker.participant hworker hpassage.participant_eq
  refine ⟨hpassage.sound h.sound, ?_, ?_, ?_, ?_, ?_⟩
  · intro other another hanother
    simp only [deeds, entriesOf_append]
    rw [List.getElem?_set] at hanother
    by_cases heq : index = other
    · subst heq
      rcases h.course index worker hworker with ⟨entry, hcourse⟩
      rw [if_pos rfl, if_pos (List.getElem?_eq_some_iff.mp hworker).1] at hanother
      cases hanother
      rw [entriesOf_map_self]
      exact ⟨entry, hcourse.step hpassage⟩
    · rw [if_neg heq] at hanother
      rcases h.course other another hanother with ⟨entry, hcourse⟩
      rw [entriesOf_map_of_ne (Ne.symm heq), List.append_nil]
      have hne := h.participant_ne hworker hanother (Ne.symm heq)
      exact ⟨entry, hcourse.other hpassage hne⟩
  · simp only [hparticipants]
    exact h.distinct
  · intro another hanother
    have hmem := List.mem_map_of_mem (f := Worker.participant) hanother
    simp only [hparticipants] at hmem
    rcases List.mem_map.mp hmem with ⟨old, hold, heq⟩
    rw [<- heq]
    exact Nat.lt_of_lt_of_le (h.participant_lt old hold) hpassage.nextParticipant_le
  · intro participant hsome
    simp only [hparticipants]
    exact h.seated participant (hpassage.isSome_standing hsome)
  · intro entry hentry
    simp only [List.length_set]
    rcases List.mem_append.mp hentry with hold | hnew
    · exact h.index_lt entry hold
    · rcases List.mem_map.mp hnew with ⟨_, _, rfl⟩
      exact (List.getElem?_eq_some_iff.mp hworker).1

/-!
# Anything that can happen
-/

theorem Account.stop (h : Account record) :
    Account { record with crew := record.crew.requestStop } :=
  ⟨h.sound, h.course, h.distinct, h.participant_lt, h.seated, h.index_lt⟩

theorem Account.act (h : Account record) {act : Act}
    (hact : record.act? environment act = some next) : Account next := by
  cases act with
  | join recruit =>
      cases hact
      exact h.join recruit
  | abandon index => exact h.abandon hact
  | stop =>
      cases hact
      exact h.stop
  | move index => exact h.move hact

theorem Account.run (h : Account record) {acts : List Act}
    (hrun : record.run? environment acts = some next) : Account next :=
  run?_keeps (fun _ _ _ _ haccount hact => haccount.act hact) h hrun

theorem Account.exists_earlier (h : Account record) {acts : List Act}
    (hrun : record.run? environment acts = some next) {before rest : List (Nat × Deed)}
    {index : Nat} {deed : Deed} (hlog : next.log = before ++ (index, deed) :: rest) :
    (exists tail, record.log = before ++ (index, deed) :: tail) ∨
      exists earlier : Record World, Account earlier ∧ earlier.log = before ∧
        deed.Fits earlier.crew.floor := by
  induction acts generalizing record with
  | nil =>
      cases hrun
      exact Or.inl ⟨rest, hlog⟩
  | cons act more ih =>
      rcases run?_cons_eq_some hrun with ⟨middle, hact, hmore⟩
      rcases ih (h.act hact) hmore with ⟨tail, htail⟩ | hearlier
      · rcases log_act hact with hsame | ⟨other, done, hfits, hnew⟩
        · exact Or.inl ⟨tail, hsame ▸ htail⟩
        · rw [hnew] at htail
          -- The entry is the one that was just appended, or older.
          cases tail using List.reverseRecOn with
          | nil =>
              rcases List.append_inj' htail rfl with ⟨hbefore, hentry⟩
              cases hentry
              exact Or.inr ⟨record, h, hbefore, hfits⟩
          | append_singleton tail last =>
              rw [<- List.cons_append, <- List.append_assoc] at htail
              exact Or.inl ⟨tail, (List.append_inj' htail rfl).1⟩
      · exact Or.inr hearlier

end Record

end BrokerProbe
