import BrokerProbe.Proofs.Crew.Muster
import BrokerProbe.Proofs.Round.Transcript
import BrokerProbe.Proofs.Worker.Limit
/-!
# What a crew asks

The questions of a worker are those of its rounds, one round after the other,
however its steps fall among those of others.  So what holds of every
conversation of a round holds of each round that a worker goes through, and the
failed rounds that it counts are those among its conversations.
-/

namespace BrokerProbe

namespace Worker

open Dialogue (Conversation Partway)

variable {World : Type}

def exchange? (environment : Environment World) (worker : Worker) (floor : Floor World) :
    Option Round.Exchange :=
  match worker.stage with
  | .rounding (.ask question _) detached =>
      some ⟨question,
        ((floor.scene worker.aside detached).reply environment.surroundings question).1⟩
  | _ => none

def Stage.between : Stage -> Bool
  | rounding _ _ => false
  | reporting _ => false
  | closing _ => false
  | _ => true

/--
Whether one of a worker's rounds can go through exchanges, and its session
close so; there are no exchanges if the session fails to start.
-/
inductive Ran (fails : Prop) (round : Nat -> Round.Asking Round.Ending) :
    List Round.Exchange -> Closing -> Prop where
  | unstarted (h : fails) : Ran fails round [] .unstarted
  | returned {run : Nat} {exchanges : List Round.Exchange} {ending : Round.Ending}
      (h : Conversation (round run) exchanges ending) : Ran fails round exchanges (.returned ending)
  | crashed {run : Nat} {exchanges : List Round.Exchange}
      (h : Conversation (round run) exchanges .crashed) : Ran fails round exchanges .crashed

inductive Underway (fails : Prop) (round : Nat -> Round.Asking Round.Ending) :
    Stage -> List Round.Exchange -> Prop where
  | rounding {run : Nat} {exchanges : List Round.Exchange}
      {rest : Round.Asking Round.Ending} (detached : Array Metric.Window)
      (h : Partway (round run) exchanges rest) :
      Underway fails round (.rounding rest detached) exchanges
  | reporting {run : Nat} {exchanges : List Round.Exchange} {ending : Round.Ending}
      (h : Conversation (round run) exchanges ending) :
      Underway fails round (.reporting ending) exchanges
  | closing {exchanges : List Round.Exchange} {closing : Closing}
      (h : Ran fails round exchanges closing) : Underway fails round (.closing closing) exchanges
  | between {stage : Stage} (h : stage.between = true) : Underway fails round stage []

/-- The rounds that a worker is through with, and the exchanges of the running one. -/
structure Ledger (fails : Prop) (worker : Worker) (past : List (List Round.Exchange × Closing))
    (now : List Round.Exchange) : Prop where
  ran : forall entry, entry ∈ past -> Ran fails worker.round entry.1 entry.2
  underway : Underway fails worker.round worker.stage now
  failedRounds_eq : worker.failedRounds = past.countP fun entry => entry.2.isFailure

/-- Whether a worker can have had these exchanges, in rounds that closed in these ways. -/
def Told (fails : Prop) (worker : Worker) (exchanges : List Round.Exchange)
    (closings : List Closing) : Prop :=
  exists past now, Ledger fails worker past now ∧ exchanges = past.flatMap Prod.fst ++ now ∧
    closings = past.map Prod.snd

variable {worker moved : Worker} {floor next : Floor World} {environment : Environment World}
variable {exchanges now : List Round.Exchange} {closings : List Closing} {closing : Closing}
variable {past : List (List Round.Exchange × Closing)} {deed? : Option Deed} {fails : Prop}

theorem told_seated (role : Role) (limit : Option Nat)
    (round : Nat -> Round.Asking Round.Ending) (aside : Option String) (participant : Nat) :
    (seated role limit round aside participant).Told fails [] [] :=
  ⟨[], [], ⟨by simp, .between rfl, rfl⟩, rfl, rfl⟩

/-!
# One step
-/

theorem Ledger.extend (h : Ledger fails worker past now) (more : List Round.Exchange)
    (hround : moved.round = worker.round) (hfailed : moved.failedRounds = worker.failedRounds)
    (hunderway : Underway fails worker.round moved.stage (now ++ more)) :
    moved.Told fails (past.flatMap Prod.fst ++ now ++ more) (past.map Prod.snd) := by
  refine ⟨past, now ++ more, ⟨?_, ?_, ?_⟩, List.append_assoc _ _ _, rfl⟩
  · rw [hround]
    exact h.ran
  · rw [hround]
    exact hunderway
  · rw [hfailed, h.failedRounds_eq]

theorem Ledger.stay (h : Ledger fails worker past now)
    (hround : moved.round = worker.round) (hfailed : moved.failedRounds = worker.failedRounds)
    (hunderway : Underway fails worker.round moved.stage now) :
    moved.Told fails (past.flatMap Prod.fst ++ now) (past.map Prod.snd ++ []) := by
  rw [<- List.append_nil now] at hunderway
  simpa using h.extend [] hround hfailed hunderway

theorem Ledger.close (h : Ledger fails worker past now) (hran : Ran fails worker.round now closing)
    (hround : moved.round = worker.round) (hbetween : moved.stage.between = true)
    (hfailed : moved.failedRounds =
      if closing.isFailure then worker.failedRounds + 1 else worker.failedRounds) :
    moved.Told fails (past.flatMap Prod.fst ++ now) (past.map Prod.snd ++ [closing]) := by
  refine ⟨past ++ [(now, closing)], [], ⟨?_, .between hbetween, ?_⟩, by simp, by simp⟩
  · intro entry hentry
    rw [hround]
    rcases List.mem_append.mp hentry with hpast | hlast
    · exact h.ran entry hpast
    · rw [List.mem_singleton.mp hlast]
      exact hran
  · rw [hfailed, h.failedRounds_eq, List.countP_append, List.countP_singleton]
    split <;> rfl

theorem Ledger.now_eq_nil (h : Ledger fails worker past now)
    (hbetween : worker.stage.between = true) : now = [] := by
  have hunderway := h.underway
  generalize worker.stage = stage at hbetween hunderway
  cases hunderway with
  | between => rfl
  | _ => cases hbetween

theorem Told.enter (h : worker.Told fails exchanges closings)
    (hbefore : worker.stage.between = true)
    (hround : moved.round = worker.round) (hfailed : moved.failedRounds = worker.failedRounds)
    (hunderway : Underway fails worker.round moved.stage []) :
    moved.Told fails exchanges (closings ++ []) := by
  rcases h with ⟨past, now, hledger, rfl, rfl⟩
  obtain rfl := hledger.now_eq_nil hbefore
  exact hledger.stay hround hfailed hunderway

theorem Told.between (h : worker.Told fails exchanges closings)
    (hbefore : worker.stage.between = true)
    {stage : Stage} (hafter : stage.between = true) :
    (worker.move stage).Told fails exchanges (closings ++ []) :=
  h.enter hbefore rfl rfl (.between hafter)

theorem Told.ask (h : worker.Told fails exchanges closings) {question : Round.Question}
    {following : Round.Answer question -> Round.Asking Round.Ending}
    {before : Array Metric.Window}
    (hstage : worker.stage = .rounding (.ask question following) before)
    (answer : Round.Answer question) (after : Array Metric.Window) :
    (worker.move (.rounding (following answer) after)).Told fails
      (exchanges ++ [⟨question, answer⟩]) closings := by
  rcases h with ⟨past, now, hledger, rfl, rfl⟩
  have hunderway := hledger.underway
  rw [hstage] at hunderway
  cases hunderway with
  | rounding _ hpartway =>
      exact hledger.extend _ rfl rfl (.rounding after (hpartway.snoc answer))
  | between hbetween => cases hbetween

theorem Told.returned (h : worker.Told fails exchanges closings) {ending : Round.Ending}
    {detached : Array Metric.Window} (hstage : worker.stage = .rounding (.done ending) detached) :
    (worker.move (afterRound ending)).Told fails exchanges (closings ++ []) := by
  rcases h with ⟨past, now, hledger, rfl, rfl⟩
  have hunderway := hledger.underway
  rw [hstage] at hunderway
  cases hunderway with
  | between hbetween => cases hbetween
  | rounding _ hpartway =>
      have hreturned := hpartway.conversation
      refine hledger.stay rfl rfl ?_
      cases ending with
      | completed => exact .reporting hreturned
      | refused => exact .reporting hreturned
      | crashed => exact .closing (.crashed hreturned)

theorem Told.reported (h : worker.Told fails exchanges closings) {ending : Round.Ending}
    (hstage : worker.stage = .reporting ending) :
    (worker.move (.closing (.returned ending))).Told fails exchanges (closings ++ []) := by
  rcases h with ⟨past, now, hledger, rfl, rfl⟩
  have hunderway := hledger.underway
  rw [hstage] at hunderway
  cases hunderway with
  | between hbetween => cases hbetween
  | reporting hreturned => exact hledger.stay rfl rfl (.closing (.returned hreturned))

theorem Told.closed (h : worker.Told fails exchanges closings)
    (hstage : worker.stage = .closing closing) (hround : moved.round = worker.round)
    (hbetween : moved.stage.between = true)
    (hfailed : moved.failedRounds =
      if closing.isFailure then worker.failedRounds + 1 else worker.failedRounds) :
    moved.Told fails exchanges (closings ++ [closing]) := by
  rcases h with ⟨past, now, hledger, rfl, rfl⟩
  have hunderway := hledger.underway
  rw [hstage] at hunderway
  cases hunderway with
  | between hbetween => cases hbetween
  | closing hran => exact hledger.close hran hround hbetween hfailed

theorem Closing.isFailure_of_isCrash (h : closing.isCrash = true) :
    closing.isFailure = false := by
  cases closing with
  | unstarted => cases h
  | crashed => rfl
  | returned ending => cases ending <;> first | rfl | cases h

theorem closings_leave (answer : Except BarrierError Nat) :
    Deed.closings [Deed.ofAnswer .left answer] = [] := by
  cases answer <;> rfl

theorem Told.pass (h : worker.Told fails exchanges closings)
    (hpassage : Passage worker floor moved next deed?)
    (hsilent : forall question following before,
      worker.stage ≠ .rounding (.ask question following) before)
    (hunstarted : worker.stage = .ready -> moved.stage = .closing .unstarted -> fails) :
    moved.Told fails exchanges (closings ++ Deed.closings deed?.toList) := by
  cases hpassage with
  | asked answer hstage => exact absurd hstage (hsilent _ _ _)
  | unstarted hstage =>
      exact h.enter (hstage ▸ rfl) rfl rfl (.closing (.unstarted (hunstarted hstage rfl)))
  | started hstage => exact h.enter (hstage ▸ rfl) rfl rfl (.rounding _ (.start _))
  | returned hstage => exact h.returned hstage
  | reported hstage => exact h.reported hstage
  | panicked hstage hcrash =>
      exact h.closed hstage rfl rfl (by rw [Closing.isFailure_of_isCrash hcrash]; rfl)
  | counted hstage => exact h.closed hstage rfl rfl rfl
  | last hstage => exact h.between (hstage ▸ rfl) rfl
  | notLast hstage => exact h.between (hstage ▸ rfl) rfl
  | left hstage => exact h.between (hstage ▸ rfl) rfl
  | leaveRefused hstage => exact h.between (hstage ▸ rfl) rfl
  | advanced hstage => exact h.between (hstage ▸ rfl) rfl
  | slept hstage => exact h.between (hstage ▸ rfl) rfl
  | arriveRefused hstage => exact h.between (hstage ▸ rfl) rfl
  | woke hstage => exact h.between (hstage ▸ rfl) rfl
  | paused hstage => exact h.between (hstage ▸ rfl) rfl
  | stopped hstage => exact h.between (hstage ▸ rfl) rfl
  | wentOn hstage => exact h.between (hstage ▸ rfl) rfl
  | resigned hstage =>
      rw [Option.toList_some, closings_leave]
      exact h.between (hstage ▸ rfl) rfl

theorem fails_of_unstarted
    (hfails : forall state error, (environment.reporter.start state).1 = .error error -> fails)
    (hstep : worker.step? environment floor = some (moved, next))
    (hready : worker.stage = .ready) (hunstarted : moved.stage = .closing .unstarted) :
    fails := by
  simp only [step?, hready, Option.some.injEq, stepReady] at hstep
  split at hstep
  · next error hanswer => exact hfails _ error hanswer
  · cases hstep
    cases hunstarted

theorem Told.step (h : worker.Told fails exchanges closings)
    (hfails : forall state error, (environment.reporter.start state).1 = .error error -> fails)
    (hstep : worker.step? environment floor = some (moved, next)) :
    moved.Told fails (exchanges ++ (worker.exchange? environment floor).toList)
      (closings ++ Deed.closings (worker.deed? floor).toList) := by
  by_cases hasks : exists question following before,
      worker.stage = .rounding (.ask question following) before
  · rcases hasks with ⟨question, following, before, hstage⟩
    simp only [step?, hstage, stepRound, Option.some.injEq, Prod.mk.injEq] at hstep
    rcases hstep with ⟨rfl, rfl⟩
    simp only [exchange?, deed?, hstage]
    exact (List.append_nil closings).symm ▸ h.ask hstage _ _
  · have hsilent : forall question following before,
        worker.stage ≠ .rounding (.ask question following) before :=
      fun question following before hstage => hasks ⟨question, following, before, hstage⟩
    have hnone : worker.exchange? environment floor = none := by
      rw [exchange?]
      split
      · next hstage => exact absurd hstage (hsilent _ _ _)
      · rfl
    rw [hnone, Option.toList_none, List.append_nil]
    exact h.pass (passage_of_step hstep) hsilent (fails_of_unstarted hfails hstep)

theorem Told.kind {kind : Round.Question -> Prop} (h : worker.Told fails exchanges closings)
    (hkind : forall run, (worker.round run).Asks kind) {exchange : Round.Exchange}
    (hexchange : worker.exchange? environment floor = some exchange) :
    kind exchange.question := by
  rcases h with ⟨past, now, hledger, _, _⟩
  have hunderway := hledger.underway
  rw [exchange?] at hexchange
  split at hexchange
  · next question following detached hstage =>
    cases hexchange
    rw [hstage] at hunderway
    cases hunderway with
    | between hbetween => cases hbetween
    | rounding _ hpartway => exact (hpartway.asks (hkind _)).1
  · cases hexchange

theorem Passage.stopping_eq (h : Passage worker floor moved next deed?)
    (hsilent : forall question following before,
      worker.stage ≠ .rounding (.ask question following) before) :
    next.stopping = floor.stopping := by
  cases h with
  | asked answer hstage => exact absurd hstage (hsilent _ _ _)
  | unstarted _ hquiet => exact hquiet.stopping
  | started _ hquiet => exact hquiet.stopping
  | reported _ hquiet => exact hquiet.stopping
  | panicked _ _ hquiet => exact hquiet.stopping
  | counted _ _ hquiet => exact hquiet.stopping
  | _ => rfl

theorem stopping_step (hstep : worker.step? environment floor = some (moved, next))
    (hexchange : forall exchange, worker.exchange? environment floor = some exchange ->
      exchange.question ≠ .stopAll) :
    next.stopping = floor.stopping := by
  by_cases hasks : exists question following before,
      worker.stage = .rounding (.ask question following) before
  · rcases hasks with ⟨question, following, before, hstage⟩
    simp only [step?, hstage, stepRound, Option.some.injEq, Prod.mk.injEq] at hstep
    rcases hstep with ⟨rfl, rfl⟩
    simp only [exchange?, hstage, Option.some.injEq, forall_eq'] at hexchange
    cases question with
    | stopAll => exact absurd rfl hexchange
    | peers directory => cases directory <;> rfl
    | _ => rfl
  · exact (passage_of_step hstep).stopping_eq fun question following before hstage =>
      hasks ⟨question, following, before, hstage⟩

theorem Told.ran (h : worker.Told fails exchanges closings) (hclosing : closing ∈ closings) :
    exists part, (forall exchange, exchange ∈ part -> exchange ∈ exchanges) ∧
      Ran fails worker.round part closing := by
  rcases h with ⟨past, now, hledger, rfl, rfl⟩
  rcases List.mem_map.mp hclosing with ⟨entry, hentry, rfl⟩
  refine ⟨entry.1, ?_, hledger.ran entry hentry⟩
  intro exchange hexchange
  exact List.mem_append_left _ (List.mem_flatMap.mpr ⟨entry, hentry, hexchange⟩)

theorem countP_flatMap_of_toNat {Item Part : Type} {items : List Item}
    {parts : Item -> List Part} {view : Part -> Bool} {chosen : Item -> Bool}
    (h : forall item, item ∈ items -> (parts item).countP view = (chosen item).toNat) :
    (items.flatMap parts).countP view = items.countP chosen := by
  induction items with
  | nil => rfl
  | cons item rest ih =>
      rw [List.forall_mem_cons] at h
      rw [List.flatMap_cons, List.countP_append, h.1, ih h.2, List.countP_cons]
      cases chosen item with
      | false => simp
      | true => simp [Nat.add_comm]

theorem Told.failedRounds_eq (h : worker.Told fails exchanges closings)
    (hbetween : worker.stage.between = true) {view : Round.Exchange -> Bool}
    (hround : forall part closing, (forall exchange, exchange ∈ part -> exchange ∈ exchanges) ->
      Ran fails worker.round part closing -> part.countP view = closing.isFailure.toNat) :
    worker.failedRounds = exchanges.countP view := by
  rcases h with ⟨past, now, hledger, rfl, rfl⟩
  obtain rfl := hledger.now_eq_nil hbetween
  rw [List.append_nil] at hround ⊢
  have hcount : forall entry, entry ∈ past ->
      entry.1.countP view = entry.2.isFailure.toNat := by
    intro entry hentry
    refine hround entry.1 entry.2 ?_ (hledger.ran entry hentry)
    exact fun exchange hexchange => List.mem_flatMap.mpr ⟨entry, hentry, hexchange⟩
  rw [hledger.failedRounds_eq, countP_flatMap_of_toNat hcount]

theorem exists_scene {exchange : Round.Exchange}
    (h : worker.exchange? environment floor = some exchange) :
    exists scene : Round.Scene World,
      exchange.answer = (scene.reply environment.surroundings exchange.question).1 := by
  rw [exchange?] at h
  split at h
  · cases h
    exact ⟨_, rfl⟩
  · cases h

theorem Passage.round_eq (h : Passage worker floor moved next deed?) :
    moved.round = worker.round := by
  cases h <;> rfl

end Worker

namespace Record

open Worker (Deed)

variable {World : Type} {environment : Environment World} {record next : Record World}
variable {fails : Prop} {recruits : List Recruit} {kind : Round.Question -> Prop}
variable {good : Round.Exchange -> Prop} {asked : Nat -> List Round.Exchange} {index : Nat}

def exchange? (environment : Environment World) (record : Record World) (index : Nat) :
    Act -> Option Round.Exchange
  | .move other =>
      if other = index then
        (record.crew.workers[index]?).bind fun worker =>
          worker.exchange? environment record.crew.floor
      else none
  | _ => none

def exchanges (environment : Environment World) (index : Nat) (record : Record World) :
    List Act -> List Round.Exchange
  | [] => []
  | act :: rest =>
      (record.exchange? environment index act).toList ++
        match record.act? environment act with
        | some next => next.exchanges environment index rest
        | none => []

/-- What is known of a crew that gathered first, given what each of its workers has asked. -/
structure Informed (fails : Prop) (recruits : List Recruit) (good : Round.Exchange -> Prop)
    (record : Record World) (asked : Nat -> List Round.Exchange) : Prop where
  told : forall (index : Nat) (worker : Worker), record.crew.workers[index]? = some worker ->
    worker.Told fails (asked index) (Deed.closings (record.deeds index))
  good : forall index exchange, exchange ∈ asked index -> good exchange
  rounds : record.crew.workers.map Worker.round = recruits.map Recruit.round

theorem Fresh.closings_eq (h : Fresh recruits record) (index : Nat) :
    Deed.closings (record.deeds index) = [] := by
  rw [Deed.closings, List.filterMap_eq_nil_iff]
  intro deed hdeed
  rw [h.log_eq index deed (mem_entriesOf.mp hdeed)]
  rfl

theorem informed_gather (world : World) (recruits : List Recruit) :
    Informed fails recruits good (gather world recruits) fun _ => [] := by
  induction recruits using List.reverseRecOn with
  | nil =>
      refine ⟨?_, by simp, rfl⟩
      intro index worker hworker
      cases hworker
  | append_singleton front recruit ih =>
      have hfresh := fresh_gather world (front ++ [recruit])
      have hopen := (fresh_gather world front).terminated_eq
      have hjoin : gather world (front ++ [recruit]) = (gather world front).join recruit :=
        List.foldl_concat _ _ _ _
      refine ⟨?_, by simp, ?_⟩
      · intro index worker hworker
        rw [hfresh.closings_eq]
        rw [hjoin, join_eq, if_neg (by simp [hopen])] at hworker
        rcases getElem?_append_singleton hworker with hold | ⟨_, rfl⟩
        · have htold := ih.told index worker hold
          rwa [(fresh_gather world front).closings_eq] at htold
        · exact Worker.told_seated _ _ _ _ _
      · rw [hjoin, join_eq, if_neg (by simp [hopen]), List.map_append, List.map_append, ih.rounds]
        rfl

section Asking

variable (hkind : forall recruit, recruit ∈ recruits -> forall run, (recruit.round run).Asks kind)
variable (hgood : forall (question : Round.Question) (scene : Round.Scene World),
  kind question -> good ⟨question, (scene.reply environment.surroundings question).1⟩)
variable (hfails : forall state error,
  (environment.reporter.start state).1 = .error error -> fails)

include hkind

theorem Informed.asks (h : Informed fails recruits good record asked)
    {worker : Worker} (hworker : worker ∈ record.crew.workers) :
    forall run, (worker.round run).Asks kind := by
  have hround := List.mem_map_of_mem (f := Worker.round) hworker
  rw [h.rounds] at hround
  rcases List.mem_map.mp hround with ⟨recruit, hrecruit, heq⟩
  rw [<- heq]
  exact hkind recruit hrecruit

theorem Informed.stopping_move (h : Informed fails recruits good record asked)
    (hcalm : ¬ kind .stopAll) (hmove : record.move? environment index = some next) :
    next.crew.floor.stopping = record.crew.floor.stopping := by
  rcases move?_eq_some hmove with ⟨worker, moved, floor, hworker, hstep, rfl⟩
  refine Worker.stopping_step hstep ?_
  intro exchange hexchange hstop
  have hquestion := (h.told index worker hworker).kind
    (h.asks hkind (List.mem_of_getElem? hworker)) hexchange
  exact hcalm (hstop ▸ hquestion)

include hgood hfails

theorem Informed.move (h : Informed fails recruits good record asked)
    (hmove : record.move? environment index = some next) :
    Informed fails recruits good next fun other =>
      asked other ++ (record.exchange? environment other (.move index)).toList := by
  rcases move?_eq_some hmove with ⟨worker, moved, floor, hworker, hstep, rfl⟩
  have htold := h.told index worker hworker
  have hasks := h.asks hkind (List.mem_of_getElem? hworker)
  refine ⟨?_, ?_, ?_⟩
  · intro other another hanother
    simp only [deeds, entriesOf_append, Deed.closings, List.filterMap_append]
    rw [List.getElem?_set] at hanother
    by_cases heq : index = other
    · subst heq
      rw [if_pos rfl, if_pos (List.getElem?_eq_some_iff.mp hworker).1] at hanother
      cases hanother
      rw [exchange?, if_pos rfl, hworker, Option.bind_some, entriesOf_map_self]
      exact htold.step hfails hstep
    · rw [if_neg heq] at hanother
      rw [exchange?, if_neg heq, entriesOf_map_of_ne (Ne.symm heq)]
      simpa [deeds, Deed.closings] using h.told other another hanother
  · intro other exchange hexchange
    rcases List.mem_append.mp hexchange with hold | hnew
    · exact h.good other exchange hold
    · rw [Option.mem_toList, exchange?] at hnew
      split at hnew
      · next heq =>
        subst heq
        rw [hworker] at hnew
        have hquestion := htold.kind hasks hnew
        rcases Worker.exists_scene hnew with ⟨scene, hanswer⟩
        have hgiven := hgood exchange.question scene hquestion
        rwa [<- hanswer] at hgiven
      · cases hnew
  · rw [<- h.rounds]
    exact map_set_eq Worker.round hworker (Worker.passage_of_step hstep).round_eq

theorem Informed.act (h : Informed fails recruits good record asked)
    {act : Act} (hkeeps : act.keepsCrew = true)
    (hact : record.act? environment act = some next) :
    Informed fails recruits good next fun other =>
      asked other ++ (record.exchange? environment other act).toList := by
  cases act with
  | join => cases hkeeps
  | abandon => cases hkeeps
  | stop =>
      cases hact
      simpa [exchange?] using ⟨h.told, h.good, h.rounds⟩
  | move index => exact h.move hkind hgood hfails hact

theorem Informed.run (h : Informed fails recruits good record asked)
    {acts : List Act} (hkeeps : forall act, act ∈ acts -> act.keepsCrew = true)
    (hrun : record.run? environment acts = some next) :
    Informed fails recruits good next fun index =>
      asked index ++ record.exchanges environment index acts := by
  induction acts generalizing record asked with
  | nil =>
      cases hrun
      simpa [exchanges] using h
  | cons act rest ih =>
      rcases run?_cons_eq_some hrun with ⟨middle, hact, hrest⟩
      rw [List.forall_mem_cons] at hkeeps
      have hinformed := ih (h.act hkind hgood hfails hkeeps.1 hact) hkeeps.2 hrest
      simpa only [exchanges, hact, List.append_assoc] using hinformed

theorem Informed.stopping_run (h : Informed fails recruits good record asked)
    (hcalm : ¬ kind .stopAll) {indices : List Nat}
    (hrun : record.run? environment (indices.map .move) = some next) :
    next.crew.floor.stopping = record.crew.floor.stopping := by
  induction indices generalizing record asked with
  | nil =>
      cases hrun
      rfl
  | cons index rest ih =>
      rcases run?_cons_eq_some hrun with ⟨middle, hmove, hrest⟩
      rw [ih (h.move hkind hgood hfails hmove) hrest, h.stopping_move hkind hcalm hmove]

end Asking

/-!
# What was logged before
-/

def prepend (log : List (Nat × Deed)) (record : Record World) : Record World :=
  { record with log := log ++ record.log }

variable (log : List (Nat × Deed))

theorem act?_prepend (environment : Environment World) (record : Record World) (act : Act) :
    (record.prepend log).act? environment act =
      (record.act? environment act).map (prepend log) := by
  cases act with
  | join recruit =>
      simp only [act?, join_eq, prepend, Option.map_some]
      split <;> simp
  | abandon index =>
      simp only [act?, abandon?, prepend]
      cases record.crew.workers[index]? with
      | none => rfl
      | some worker =>
          simp only [Option.bind_eq_bind, Option.bind_some]
          split
          · split <;> rfl
          · rfl
  | stop => rfl
  | move index =>
      simp only [act?, move?, prepend]
      cases record.crew.workers[index]? with
      | none => rfl
      | some worker =>
          cases record.crew.step? environment index with
          | none => rfl
          | some crew => simp [prepend]

theorem run?_prepend {acts : List Act} (h : record.run? environment acts = some next) :
    (record.prepend log).run? environment acts = some (next.prepend log) := by
  induction acts generalizing record with
  | nil =>
      cases h
      rfl
  | cons act rest ih =>
      rcases run?_cons_eq_some h with ⟨middle, hact, hrest⟩
      rw [run?, List.foldlM_cons, act?_prepend, hact]
      exact ih hrest

theorem exchanges_prepend (record : Record World) (acts : List Act) :
    (record.prepend log).exchanges environment index acts =
      record.exchanges environment index acts := by
  induction acts generalizing record with
  | nil => rfl
  | cons act rest ih =>
      have hsame : (record.prepend log).exchange? environment index act =
          record.exchange? environment index act := by
        cases act <;> rfl
      simp only [exchanges, hsame, act?_prepend]
      cases record.act? environment act with
      | none => rfl
      | some next => exact congrArg _ (ih next)

end Record

end BrokerProbe
