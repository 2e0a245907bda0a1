import BrokerProbe.Proofs.Crew.Account
/-!
# Lock step

The rounds of a worker fall into consecutive phases, from the one in which it
took its seat.  So no worker begins the round of a phase before all that were
registered for the phase before have arrived in it or left.
-/

namespace BrokerProbe

namespace Worker

def Deed.began? : Deed -> Option Nat
  | began phase => some phase
  | _ => none

def Deed.ended? : Deed -> Option Nat
  | ended phase _ => some phase
  | _ => none

def inRound (worker : Worker) : Bool :=
  match worker.stage with
  | .rounding _ _ => true
  | .reporting _ => true
  | .closing _ => true
  | _ => false

/-!
# The phases of the rounds
-/

/-- What comes once in each lap with its phase comes in consecutive phases. -/
theorem Deed.filterMap_laps {phase? : Deed -> Option Nat}
    (hlap : forall phase closing, (lap phase closing).filterMap phase? = [phase])
    (phase : Nat) (past : List Closing) :
    (laps phase past).filterMap phase? = List.range' phase past.length := by
  induction past generalizing phase with
  | nil => rfl
  | cons closing rest ih =>
      rw [laps, List.filterMap_append, hlap, ih, List.length_cons, List.range'_succ]
      rfl

variable {worker : Worker} {barrier : Barrier} {stage : Stage} {phase entry : Nat}
variable {deeds latest : List Deed} {past done : List Closing} {hold : Barrier.Hold}

theorem Leg.began?_latest (h : Leg worker phase stage done latest hold) :
    latest.filterMap Deed.began? = [] ∨ latest.filterMap Deed.began? = [phase] := by
  cases h with
  | ready => exact Or.inl rfl
  | abandoning => exact Or.inl rfl
  | abandoned => exact Or.inl rfl
  | _ => exact Or.inr rfl

theorem Leg.ended?_latest (h : Leg worker phase stage done latest hold) :
    latest.filterMap Deed.ended? = [] ∨ latest.filterMap Deed.ended? = [phase] := by
  cases h with
  | ready => exact Or.inl rfl
  | rounding => exact Or.inl rfl
  | reporting => exact Or.inl rfl
  | closing => exact Or.inl rfl
  | abandoning => exact Or.inl rfl
  | abandoned => exact Or.inl rfl
  | _ => exact Or.inr rfl

theorem Course.filterMap_deeds {phase? : Deed -> Option Nat}
    (h : Course barrier worker entry deeds past done latest hold)
    (hjoined : phase? (.joined entry) = none)
    (hlap : forall phase closing, (Deed.lap phase closing).filterMap phase? = [phase])
    (hlatest : latest.filterMap phase? = [] ∨
      latest.filterMap phase? = [entry + past.length]) :
    exists count, deeds.filterMap phase? = List.range' entry count := by
  rw [h.deeds_eq, List.cons_append, List.filterMap_cons_none hjoined, List.filterMap_append,
    Deed.filterMap_laps hlap]
  rcases hlatest with hnone | hone
  · exact ⟨past.length, by rw [hnone, List.append_nil]⟩
  · exact ⟨past.length + 1, by rw [hone, List.range'_1_concat]⟩

theorem OnCourse.began_consecutive (h : OnCourse barrier worker entry deeds) :
    exists count, deeds.filterMap Deed.began? = List.range' entry count := by
  rcases h with ⟨past, done, latest, hold, hcourse⟩
  exact hcourse.filterMap_deeds rfl (fun _ _ => rfl) hcourse.leg.began?_latest

theorem OnCourse.ended_consecutive (h : OnCourse barrier worker entry deeds) :
    exists count, deeds.filterMap Deed.ended? = List.range' entry count := by
  rcases h with ⟨past, done, latest, hold, hcourse⟩
  exact hcourse.filterMap_deeds rfl (fun _ _ => rfl) hcourse.leg.ended?_latest

theorem Course.length_began (h : Course barrier worker entry deeds past done latest hold) :
    (deeds.filterMap Deed.began?).length =
      past.length + (latest.filterMap Deed.began?).length := by
  rw [h.deeds_eq, List.cons_append, List.filterMap_cons_none rfl, List.filterMap_append,
    Deed.filterMap_laps fun _ _ => rfl, List.length_append, List.length_range']

theorem Course.phase_of_began
    (h : Course barrier worker entry deeds past done latest (.working (entry + past.length)))
    (hbegan : latest.filterMap Deed.began? = [entry + past.length]) :
    barrier.phase + 1 = entry + (deeds.filterMap Deed.began?).length := by
  have hphase : barrier.phase = entry + past.length := h.hold_at.2
  rw [h.length_began, hbegan, hphase]
  rfl

theorem OnCourse.phase_inRound (h : OnCourse barrier worker entry deeds)
    (hround : worker.inRound = true) :
    barrier.phase + 1 = entry + (deeds.filterMap Deed.began?).length := by
  rcases h with ⟨past, done, latest, hold, hcourse⟩
  have hleg := hcourse.leg
  unfold inRound at hround
  split at hround
  · next hstage =>
    rw [hstage] at hleg
    cases hleg
    exact hcourse.phase_of_began rfl
  · next hstage =>
    rw [hstage] at hleg
    cases hleg
    exact hcourse.phase_of_began rfl
  · next hstage =>
    rw [hstage] at hleg
    cases hleg
    exact hcourse.phase_of_began rfl
  · cases hround

/-!
# What is done by the end of a phase
-/

def Deed.Through (phase : Nat) (deeds : List Deed) : Prop :=
  exists closing, [ended phase closing, arrived phase].Sublist deeds

theorem Deed.Through.append_left (more : List Deed) (h : Deed.Through phase deeds) :
    Deed.Through phase (more ++ deeds) := by
  rcases h with ⟨closing, hsub⟩
  exact ⟨closing, hsub.trans (List.sublist_append_right more deeds)⟩

theorem Deed.Through.append_right (more : List Deed) (h : Deed.Through phase deeds) :
    Deed.Through phase (deeds ++ more) := by
  rcases h with ⟨closing, hsub⟩
  exact ⟨closing, hsub.trans (List.sublist_append_left deeds more)⟩

theorem Deed.through_laps {start : Nat} (past : List Closing) (hle : start <= phase)
    (hlt : phase < start + past.length) : Deed.Through phase (laps start past) := by
  induction past generalizing start with
  | nil => exact absurd hle (Nat.not_le_of_lt hlt)
  | cons closing rest ih =>
      rw [List.length_cons] at hlt
      rcases Nat.eq_or_lt_of_le hle with heq | hlater
      · subst heq
        have hlap : Deed.Through start (lap start closing) := ⟨closing, by simp [lap]⟩
        exact hlap.append_right _
      · have hrest : Deed.Through phase (laps (start + 1) rest) := ih hlater (by omega)
        exact hrest.append_left _

theorem Leg.left_or_through (h : Leg worker phase stage done latest hold)
    (hhold : hold.At barrier worker.participant) :
    (exists last, Deed.left last ∈ latest) ∨ barrier.phase <= phase ∨
      barrier.phase = phase + 1 ∧ Deed.Through phase latest := by
  have hthrough : forall closing more,
      Deed.Through phase ([.began phase, .ended phase closing, .judged false,
        .arrived phase] ++ more) := by
    intro closing more
    have hlap : Deed.Through phase
        [.began phase, .ended phase closing, .judged false, .arrived phase] :=
      ⟨closing, by simp⟩
    exact hlap.append_right more
  cases h with
  | ready => exact Or.inr (Or.inl (Nat.le_of_eq hhold.2))
  | rounding => exact Or.inr (Or.inl (Nat.le_of_eq hhold.2))
  | reporting => exact Or.inr (Or.inl (Nat.le_of_eq hhold.2))
  | closing => exact Or.inr (Or.inl (Nat.le_of_eq hhold.2))
  | judging => exact Or.inr (Or.inl (Nat.le_of_eq hhold.2))
  | retiring => exact Or.inr (Or.inl (Nat.le_of_eq hhold.2))
  | retired => exact Or.inl ⟨phase, by simp⟩
  | arriving => exact Or.inr (Or.inl (Nat.le_of_eq hhold.2))
  | asleep =>
      rcases hhold.2 with ⟨_, hrunning⟩ | ⟨_, hover⟩
      · exact Or.inr (Or.inl (Nat.le_of_eq hrunning))
      · exact Or.inr (Or.inr ⟨hover, hthrough _ []⟩)
  | pausing => exact Or.inr (Or.inr ⟨hhold.2, hthrough _ []⟩)
  | checking => exact Or.inr (Or.inr ⟨hhold.2, hthrough _ []⟩)
  | stopping => exact Or.inr (Or.inr ⟨hhold.2, hthrough _ [.checked true]⟩)
  | stopped => exact Or.inl ⟨phase + 1, by simp⟩
  | crashing => exact Or.inr (Or.inl (Nat.le_of_eq hhold.2))
  | crashed => exact Or.inl ⟨phase, by simp⟩
  | abandoning => exact Or.inr (Or.inl (Nat.le_of_eq hhold.2))
  | abandoned => exact Or.inl ⟨phase, by simp⟩

theorem OnCourse.left_or_through (h : OnCourse barrier worker entry deeds)
    (hentry : entry <= phase) (hover : phase < barrier.phase) :
    (exists last, Deed.left last ∈ deeds) ∨ Deed.Through phase deeds := by
  rcases h with ⟨past, done, latest, hold, hcourse⟩
  have hpast : phase < entry + past.length -> Deed.Through phase deeds := by
    intro hlt
    have hlaps : Deed.Through phase (.joined entry :: Deed.laps entry past) :=
      (Deed.through_laps past hentry hlt).append_left [.joined entry]
    rw [hcourse.deeds_eq]
    exact hlaps.append_right latest
  -- The phase is over, so it has the number of a lap before or of the running one.
  rcases hcourse.leg.left_or_through hcourse.hold_at with
    ⟨last, hlast⟩ | hle | ⟨heq, hthrough⟩
  · exact Or.inl ⟨last, by
      rw [hcourse.deeds_eq]
      exact List.mem_append_right _ hlast⟩
  · exact Or.inr (hpast (Nat.lt_of_lt_of_le hover hle))
  · rcases Nat.lt_or_ge phase (entry + past.length) with hlt | hge
    · exact Or.inr (hpast hlt)
    · have hsame : phase = entry + past.length := by omega
      rw [hcourse.deeds_eq, hsame]
      exact Or.inr (hthrough.append_left _)

end Worker

namespace Record

open Worker (Deed OnCourse)

variable {World : Type} {environment : Environment World} {record : Record World}

def starts (record : Record World) (index : Nat) : List Nat :=
  (record.deeds index).filterMap Deed.began?

def ends (record : Record World) (index : Nat) : List Nat :=
  (record.deeds index).filterMap Deed.ended?

theorem getElem?_range'_eq_some {start count k phase : Nat}
    (h : (List.range' start count)[k]? = some phase) : phase = start + k := by
  rcases List.getElem?_eq_some_iff.mp h with ⟨_, heq⟩
  rw [List.getElem_range', Nat.one_mul] at heq
  exact heq.symm

/--
Who joined in some phase has its rounds in the phases from there on, one after
the other.  So when the round of a phase begins, all that joined before that
phase have ended their round in the phase before and arrived, or have left.
-/
structure InLockStep (record : Record World) : Prop where
  rounds : forall index worker, record.crew.workers[index]? = some worker ->
    exists entry, (record.deeds index).head? = some (.joined entry) ∧
      (forall k phase, (record.starts index)[k]? = some phase -> phase = entry + k) ∧
      (forall k phase, (record.ends index)[k]? = some phase -> phase = entry + k) ∧
      (worker.inRound = true ->
        record.crew.floor.barrier.phase + 1 = entry + (record.starts index).length)
  barred : forall before rest index phase,
    record.log = before ++ (index, .began (phase + 1)) :: rest ->
    forall other entry, (other, .joined entry) ∈ before -> entry <= phase ->
      (exists last, (other, .left last) ∈ before) ∨ Deed.Through phase (entriesOf before other)

/-- Whatever happens to a crew, and in whatever order, it goes in lock step. -/
theorem rounds_in_lock_step (environment : Environment World) (world : World)
    (acts : List Act) (hrun : (ofWorld world).run? environment acts = some record) :
    record.InLockStep := by
  have haccount := (account_ofWorld world).run hrun
  constructor
  · intro index worker hworker
    rcases haccount.course index worker hworker with ⟨entry, hcourse⟩
    refine ⟨entry, hcourse.head?_deeds, ?_, ?_, hcourse.phase_inRound⟩
    · intro k phase hphase
      rcases hcourse.began_consecutive with ⟨count, hcount⟩
      rw [starts, hcount] at hphase
      exact getElem?_range'_eq_some hphase
    · intro k phase hphase
      rcases hcourse.ended_consecutive with ⟨count, hcount⟩
      rw [ends, hcount] at hphase
      exact getElem?_range'_eq_some hphase
  · intro before rest index phase hlog other entry hjoined hentry
    rcases (account_ofWorld world).exists_earlier hrun hlog with
      ⟨tail, htail⟩ | ⟨earlier, hearlier, rfl, hfits⟩
    · simp [ofWorld] at htail
    · have hlength : other < earlier.crew.workers.length := hearlier.index_lt _ hjoined
      have hworker := List.getElem?_eq_getElem hlength
      rcases hearlier.course other _ hworker with ⟨first, hcourse⟩
      have hsame := hcourse.eq_entry (mem_entriesOf.mpr hjoined)
      subst hsame
      have hover : phase < earlier.crew.floor.barrier.phase := by
        rw [<- show phase + 1 = earlier.crew.floor.barrier.phase from hfits]
        exact Nat.lt_succ_self phase
      rcases hcourse.left_or_through hentry hover with ⟨last, hlast⟩ | hthrough
      · exact Or.inl ⟨last, mem_entriesOf.mp hlast⟩
      · exact Or.inr hthrough

def lateJoining : List Act :=
  [.join (rehearsed .consumer (some 2) []),
    .join (rehearsed .metadata (some 2) [.refuseAddress])] ++
  List.replicate 6 (.move 0) ++ List.replicate 6 (.move 1) ++
  [.join (rehearsed .consumer none []), .move 2] ++ List.replicate 4 (.move 0)

theorem rounds_in_lock_step_lateJoining :
    exists record,
      (ofWorld emptySite).run? Simulated.Site.environment lateJoining = some record ∧
      record.starts 0 = [0, 1] ∧ record.starts 1 = [0] ∧ record.starts 2 = [1] ∧
      record.InLockStep := by
  have hcheck : ((ofWorld emptySite).run? Simulated.Site.environment lateJoining).any
      (fun record => decide (record.starts 0 = [0, 1] ∧ record.starts 1 = [0] ∧
        record.starts 2 = [1])) = true := by decide +kernel
  rcases (Option.any_eq_true _ _).mp hcheck with ⟨record, hrun, hstarts⟩
  rcases of_decide_eq_true hstarts with ⟨hfirst, hsecond, hthird⟩
  exact ⟨record, hrun, hfirst, hsecond, hthird,
    rounds_in_lock_step Simulated.Site.environment emptySite lateJoining hrun⟩

end Record

end BrokerProbe
