import BrokerProbe.Proofs.Metric.Growth
import BrokerProbe.Proofs.Round.Availability
import BrokerProbe.Proofs.Round.Locality
import BrokerProbe.Proofs.Topology.Distinct
/-!
# The keys after rounds

With all flags on, the keys that rounds over partitions leave behind are known
from what the rounds planned and how they ended: each round brings in the keys
of its plan, and the availability once it has one.  What is there stays.
-/

namespace BrokerProbe

namespace Round

open Dialogue (Conversation GivenBy stateAfter)
open BrokerProbe.Metric.Question (claimed)

variable {World Value : Type} {surroundings : Surroundings World} {scene : Scene World}
variable {exchanges : List Exchange}

/-!
# What a round plans
-/

theorem Scene.run_outer {asking : Asking Value}
    (h : asking.Asks (Question.OnMetric fun _ => False)) (scene : Scene World)
    (space : Metric.Space) :
    asking.run (reply surroundings) { scene with space } =
      ((asking.run (reply surroundings) scene).1,
        { (asking.run (reply surroundings) scene).2 with space }) := by
  induction asking generalizing scene with
  | done value => rfl
  | ask question next ih =>
      have hreply : reply surroundings question { scene with space } =
          ((reply surroundings question scene).1,
            { (reply surroundings question scene).2 with space }) := by
        cases question with
        | metric question => exact h.1.elim
        | peers directory => cases directory <;> rfl
        | _ => rfl
      simp only [Dialogue.run, hreply]
      exact ih _ (h.2 _) _

theorem metricExchanges_eq_nil {asking : Asking Value} {value : Value}
    (hasks : asking.Asks (Question.OnMetric fun _ => False))
    (h : Conversation asking exchanges value) : metricExchanges exchanges = [] :=
  List.eq_nil_iff_forall_not_mem.mpr (forall_metricExchanges (h.asks hasks))

namespace Sweep

def opening (sweep : Sweep) : Asking (Except SetupError Shard) := do
  sweep.enter .idle .planning
  sweep.plan

def proceed (sweep : Sweep) : Except SetupError Shard -> Asking Ending
  | .error error => sweep.refuse error
  | .ok shard => sweep.measure shard

theorem round_eq (sweep : Sweep) : sweep.round = sweep.opening >>= sweep.proceed := by
  rfl

theorem asks_opening (sweep : Sweep) :
    sweep.opening.Asks (Question.OnMetric fun _ => False) :=
  ⟨trivial, fun _ => sweep.asks_plan⟩

end Sweep

def Occasion.planned (occasion : Occasion) (sweep : Sweep) : Except SetupError Shard :=
  (sweep.opening.run (Scene.reply occasion.surroundings) (occasion.scene .empty)).1

variable {sweep : Sweep} {occasion : Occasion} {registry : Metric.Registry}

theorem Sweep.proceed_occasion (sweep : Sweep) (occasion : Occasion)
    (registry : Metric.Registry) :
    exists later,
      metricExchanges (occasion.transcript sweep.round registry) = metricExchanges later ∧
      Conversation (sweep.proceed (occasion.planned sweep)) later
        (occasion.play sweep.round registry).1 := by
  obtain ⟨found, hfound⟩ : exists found,
      sweep.opening.run (Scene.reply occasion.surroundings) (occasion.scene registry) =
        (occasion.planned sweep, found) :=
    ⟨_, Scene.run_outer sweep.asks_opening (occasion.scene .empty) (.ofRegistry registry)⟩
  have hopening : metricExchanges (occasion.transcript sweep.opening registry) = [] :=
    metricExchanges_eq_nil sweep.asks_opening (Dialogue.conversation_run _ _ _)
  have hplayed : (occasion.play sweep.round registry).1 =
      ((sweep.proceed (occasion.planned sweep)).run
        (Scene.reply occasion.surroundings) found).1 := by
    show (sweep.round.run (Scene.reply occasion.surroundings) (occasion.scene registry)).1 = _
    rw [sweep.round_eq, Dialogue.run_bind, hfound]
  refine ⟨_, ?_, hplayed ▸ Dialogue.conversation_run _ _ _⟩
  rw [Occasion.transcript] at hopening
  rw [Occasion.transcript, sweep.round_eq, Dialogue.transcript_bind, metricExchanges_append,
    hopening, hfound]
  rfl

/-!
# What a round claims
-/

theorem map_question_metricExchanges (exchanges : List Exchange) :
    (metricExchanges exchanges).map Dialogue.Exchange.question = metricQuestions exchanges := by
  rw [metricExchanges, metricQuestions, List.map_filterMap]
  apply List.filterMap_congr
  rintro ⟨question, answer⟩ _
  cases question <;> rfl

namespace Sweep

variable {publisher : Metric.Publisher} {result : Option Metric.Tally}
variable {shard : Shard} {ending : Ending} {readings : List (Partition × Read)}
variable {recorded : List (Dialogue.Exchange Metric.Question Metric.Answer)}

theorem claimed_probing {topics : Topology} {tally : Metric.Tally}
    (hflags : publisher.flags = .all)
    (hstarts : Conversation (Metric.Tally.start publisher topics) recorded tally)
    (hprobes : Conversation (probeAll tally topics.partitions) exchanges result)
    (hgranted : forall exchange, exchange ∈ recorded -> Metric.Granted exchange) :
    claimed ((recorded ++ metricExchanges exchanges).map Dialogue.Exchange.question) =
      claimed (Metric.Tally.claims publisher.role topics) := by
  rcases Metric.Tally.start_inv hflags hstarts hgranted with ⟨rfl, hasked⟩
  have hprobed : claimed (metricQuestions exchanges) = [] := by
    rw [probeAll_published_inv hprobes fun _ => Topology.mem_reverse_of_mem_partitions]
    exact Metric.Tally.claimed_samples _ _
  rw [List.map_append, Metric.Question.claimed_append, hasked, map_question_metricExchanges,
    hprobed, List.append_nil]

theorem Recorded.claimed (h : Recorded sweep shard recorded readings ending)
    (hflags : sweep.publisher.flags = .all)
    (hgranted : forall exchange, exchange ∈ recorded -> Metric.Granted exchange) :
    Metric.Question.claimed (recorded.map Dialogue.Exchange.question) =
      Metric.Question.claimed (Metric.Tally.claims sweep.role shard.topics) ++
        if ending.shown?.isSome then [(Metric.Key.availability sweep.role).encode] else [] := by
  cases h with
  | crashed hstarts hprobes =>
      rw [List.forall_mem_append] at hgranted
      rw [claimed_probing hflags hstarts hprobes hgranted.1]
      exact (List.append_nil _).symm
  | completed hstarts hprobes hshows =>
      simp only [List.forall_mem_append] at hgranted
      rw [List.map_append, Metric.Question.claimed_append,
        claimed_probing hflags hstarts hprobes hgranted.1.1]
      have hshown := Metric.Publisher.claimed_showAvailability hflags hshows
      exact congrArg _ hshown

end Sweep

theorem Sweep.Recorded.shown?_isSome_iff {sweep : Sweep} {shard : Shard} {ending : Ending}
    {readings : List (Partition × Read)}
    {recorded : List (Dialogue.Exchange Metric.Question Metric.Answer)}
    (h : Recorded sweep shard recorded readings ending) :
    ending.shown?.isSome = true <-> shard.topics.partitions ≠ [] ∧ ending ≠ .crashed := by
  cases ending with
  | crashed => simp [Ending.shown?]
  | refused error => cases h
  | completed outcome =>
      rcases h.completed_inv with ⟨hreads, latency, rfl⟩
      show (Metric.availability (readings.map Prod.snd).length _).isSome = true <-> _
      rw [<- hreads, Metric.availability, List.length_map]
      simp

/-!
# What a round brings in
-/

def Ending.FollowsOn (ending : Ending) : Except SetupError Shard -> Prop
  | .error error => ending = .refused error
  | .ok shard => ending = .crashed ∨
      exists outcome, ending = .completed outcome ∧ outcome.tries = shard.topics.partitionCount

/--
The keys that a round brings in, given what it planned and how it ended.  A
round that a crash breaks off does not get to its availability.
-/
inductive Enters (role : Role) (planned : Except SetupError Shard) (ending : Ending) :
    Metric.Key -> Prop where
  | latency {shard : Shard} (plans : planned = .ok shard) :
      Enters role planned ending (.latency role)
  | topic {shard : Shard} {topic : Topic} (plans : planned = .ok shard)
      (assigned : topic ∈ shard.topics) : Enters role planned ending (.topic role topic.name)
  | partition {shard : Shard} {partition : Partition} (plans : planned = .ok shard)
      (assigned : partition ∈ shard.topics.partitions) :
      Enters role planned ending (.partition role partition)
  | refused {error : SetupError} (plans : planned = .error error) :
      Enters role planned ending (.availability role)
  | probed {shard : Shard} {partition : Partition} (plans : planned = .ok shard)
      (assigned : partition ∈ shard.topics.partitions) (finishes : ending ≠ .crashed) :
      Enters role planned ending (.availability role)

namespace Sweep

theorem followsOn_proceed {planned : Except SetupError Shard} {ending : Ending}
    (h : Conversation (sweep.proceed planned) exchanges ending) : ending.FollowsOn planned := by
  cases planned with
  | error error =>
      rcases refuse_inv h with ⟨_, _, _, _, hending⟩
      exact hending
  | ok shard =>
      have hmeasured := measure_inv h
      cases ending with
      | crashed => exact .inl rfl
      | refused error => exact absurd rfl (hmeasured.ne_refused error)
      | completed outcome =>
          rcases hmeasured.completed_inv with ⟨hreads, _, latency, rfl⟩
          refine .inr ⟨_, rfl, ?_⟩
          rw [<- Topology.length_partitions, <- hreads, List.length_map]
          exact List.length_map _

theorem mem_claimed_proceed {planned : Except SetupError Shard} {ending : Ending} {text : String}
    (hflags : sweep.publisher.flags = .all)
    (h : Conversation (sweep.proceed planned) exchanges ending)
    (hgranted : forall exchange, exchange ∈ metricExchanges exchanges ->
      Metric.Granted exchange) :
    text ∈ claimed ((metricExchanges exchanges).map Dialogue.Exchange.question) <->
      exists key, key.encode = text ∧ Enters sweep.role planned ending key := by
  cases planned with
  | error error =>
      rcases refuse_inv h with ⟨shown, key, rfl, hshown, rfl⟩
      have hasked : metricExchanges (.released :: shown.map Exchange.ofMetric) = shown := by
        simp [Exchange.released]
      rw [hasked, Metric.Publisher.claimed_showAvailability hflags hshown,
        if_pos Option.isSome_some, List.mem_singleton]
      constructor
      · rintro rfl
        exact ⟨_, rfl, .refused rfl⟩
      -- All other ways for a key to come in are those of a plan.
      · rintro ⟨_, rfl, hplan | hplan | hplan | _ | hplan⟩
        · cases hplan
        · cases hplan
        · cases hplan
        · rfl
        · cases hplan
  | ok shard =>
      have hrecorded := (measure_inv h).records
      rw [hrecorded.claimed hflags hgranted, List.mem_append,
        Metric.Tally.mem_claimed_claims, List.mem_ite_nil_right, hrecorded.shown?_isSome_iff,
        List.mem_singleton]
      constructor
      · rintro ((rfl | ⟨topic, htopic, rfl⟩ | ⟨partition, hpartition, rfl⟩) |
          ⟨⟨hpartitions, hfinishes⟩, rfl⟩)
        · exact ⟨_, rfl, .latency rfl⟩
        · exact ⟨_, rfl, .topic rfl htopic⟩
        · exact ⟨_, rfl, .partition rfl hpartition⟩
        · rcases List.exists_mem_of_ne_nil _ hpartitions with ⟨partition, hpartition⟩
          exact ⟨_, rfl, .probed rfl hpartition hfinishes⟩
      · rintro ⟨_, rfl, ⟨⟨⟩⟩ | ⟨⟨⟩, htopic⟩ | ⟨⟨⟩, hpartition⟩ | ⟨⟨⟩⟩ |
          ⟨⟨⟩, hpartition, hfinishes⟩⟩
        · exact .inl (.inl rfl)
        · exact .inl (.inr (.inl ⟨_, htopic, rfl⟩))
        · exact .inl (.inr (.inr ⟨_, hpartition, rfl⟩))
        · exact .inr ⟨⟨List.ne_nil_of_mem hpartition, hfinishes⟩, rfl⟩

/-!
# Rounds in a row
-/

theorem registry_play (asking : Asking Ending) (occasion : Occasion)
    (registry : Metric.Registry) :
    (occasion.play asking registry).2 =
      (stateAfter Metric.Space.reply (.ofRegistry registry)
        (metricExchanges (occasion.transcript asking registry))).registry := by
  rcases Dialogue.givenBy_transcript (Scene.reply occasion.surroundings) asking
    (occasion.scene registry) with ⟨hgiven, hafter⟩
  have hspace := (Scene.givenBy_metric hgiven).2
  rw [hafter] at hspace
  exact congrArg Metric.Space.registry hspace

theorem kinded_play (sweep : Sweep) (occasion : Occasion) (h : registry.Kinded) :
    (occasion.play sweep.round registry).2.Kinded :=
  (Scene.keeps_kinded occasion.surroundings sweep.asks_round_fits h).2

theorem kinded_series (sweep : Sweep) (occasions : List Occasion) (h : registry.Kinded) :
    (series sweep.round occasions registry).2.Kinded := by
  induction occasions generalizing registry with
  | nil => exact h
  | cons occasion rest ih => exact ih (sweep.kinded_play occasion h)

theorem granted_occasion (sweep : Sweep) (occasion : Occasion) (h : registry.Kinded) :
    forall exchange, exchange ∈ metricExchanges (occasion.transcript sweep.round registry) ->
      Metric.Granted exchange :=
  fun _ hexchange => (Scene.keeps_kinded occasion.surroundings sweep.asks_round_fits h).1 _
    (ofMetric_mem hexchange)

theorem mem_names_play {text : String} (hflags : sweep.publisher.flags = .all)
    (occasion : Occasion) (h : registry.Kinded) :
    text ∈ (occasion.play sweep.round registry).2.names <->
      text ∈ registry.names ∨
        exists key, key.encode = text ∧
          Enters sweep.role (occasion.planned sweep) (occasion.play sweep.round registry).1
            key := by
  rcases sweep.proceed_occasion occasion registry with ⟨later, hasked, hlater⟩
  have hgranted := sweep.granted_occasion occasion h
  rw [hasked] at hgranted
  rw [registry_play, Metric.Space.mem_names_stateAfter, hasked,
    mem_claimed_proceed hflags hlater hgranted]
  rfl

def history (sweep : Sweep) (occasions : List Occasion) (registry : Metric.Registry) :
    List (Except SetupError Shard × Ending) :=
  (occasions.map fun occasion => occasion.planned sweep).zip
    (series sweep.round occasions registry).1

theorem history_cons (sweep : Sweep) (occasion : Occasion) (rest : List Occasion)
    (registry : Metric.Registry) :
    sweep.history (occasion :: rest) registry =
      (occasion.planned sweep, (occasion.play sweep.round registry).1) ::
        sweep.history rest (occasion.play sweep.round registry).2 := rfl

theorem mem_names_series {text : String} (hflags : sweep.publisher.flags = .all)
    (occasions : List Occasion) (h : registry.Kinded) :
    text ∈ (series sweep.round occasions registry).2.names <->
      text ∈ registry.names ∨
        exists round, round ∈ sweep.history occasions registry ∧
          exists key, key.encode = text ∧ Enters sweep.role round.1 round.2 key := by
  induction occasions generalizing registry with
  | nil => simp [series, history]
  | cons occasion rest ih =>
      rw [history_cons, List.exists_mem_cons_iff, <- or_assoc, <- mem_names_play hflags occasion h]
      exact ih (sweep.kinded_play occasion h)

theorem encode_mem_names_series (hflags : sweep.publisher.flags = .all)
    (occasions : List Occasion) (key : Metric.Key) :
    key.encode ∈ (series sweep.round occasions .empty).2.names <->
      exists round, round ∈ sweep.history occasions .empty ∧
        Enters sweep.role round.1 round.2 key := by
  rw [mem_names_series hflags occasions Metric.Registry.kinded_empty]
  constructor
  · rintro (⟨⟨⟩⟩ | ⟨round, hround, other, hencode, henters⟩)
    exact ⟨round, hround, Metric.Key.encode_injective hencode ▸ henters⟩
  · rintro ⟨round, hround, henters⟩
    exact .inr ⟨round, hround, key, rfl, henters⟩

end Sweep

section Enters

variable {role : Role} {planned : Except SetupError Shard} {ending : Ending} {key : Metric.Key}

theorem Enters.latency_of (h : Enters role planned ending key)
    (hkind : key.kind ≠ .availability) : Enters role planned ending (.latency role) := by
  cases h with
  | latency hplan => exact .latency hplan
  | topic hplan => exact .latency hplan
  | partition hplan => exact .latency hplan
  | refused => exact absurd rfl hkind
  | probed => exact absurd rfl hkind

theorem Enters.availability_of (h : Enters role planned ending key)
    (hkind : key.kind = .partitionLatency) (hfinishes : ending ≠ .crashed) :
    Enters role planned ending (.availability role) := by
  cases h with
  | partition hplan hpartition => exact .probed hplan hpartition hfinishes
  | _ => cases hkind

end Enters

namespace Sweep

def Registered (role : Role) (shard : Shard) (names : List String) : Prop :=
  (forall topic, topic ∈ shard.topics -> (Metric.Key.topic role topic.name).encode ∈ names) ∧
    forall partition, partition ∈ shard.topics.partitions ->
      (Metric.Key.partition role partition).encode ∈ names

/--
A round whose topics and partitions have their keys brings in nothing, unless a
round before it was broken off and left no availability.
-/
theorem names_play_of_registered {shard : Shard} (hflags : sweep.publisher.flags = .all)
    (occasions : List Occasion) (occasion : Occasion)
    (hplan : occasion.planned sweep = .ok shard)
    (hlatency : shard.topics ≠ [] ∨ (Metric.Key.latency sweep.role).encode ∈
      (series sweep.round occasions .empty).2.names)
    (hregistered : Registered sweep.role shard (series sweep.round occasions .empty).2.names)
    (hfinished : forall round, round ∈ sweep.history occasions .empty -> round.2 ≠ .crashed) :
    (occasion.play sweep.round (series sweep.round occasions .empty).2).2.names =
      (series sweep.round occasions .empty).2.names := by
  have hkinded := sweep.kinded_series occasions Metric.Registry.kinded_empty
  refine Metric.Registry.names_eq_of_mem_iff fun text => ?_
  rw [mem_names_play hflags occasion hkinded, or_iff_left_iff_imp]
  rintro ⟨_, rfl, henters⟩
  rw [hplan] at henters
  cases henters with
  | latency =>
      rcases hlatency with htopics | hlatency
      · rcases List.exists_mem_of_ne_nil _ htopics with ⟨topic, htopic⟩
        rcases (encode_mem_names_series hflags occasions _).mp (hregistered.1 topic htopic) with
          ⟨round, hround, hentered⟩
        exact (encode_mem_names_series hflags occasions _).mpr
          ⟨round, hround, hentered.latency_of nofun⟩
      · exact hlatency
  | topic hplanned htopic =>
      cases hplanned
      exact hregistered.1 _ htopic
  | partition hplanned hpartition =>
      cases hplanned
      exact hregistered.2 _ hpartition
  | refused hplanned => cases hplanned
  | probed hplanned hpartition =>
      cases hplanned
      rcases (encode_mem_names_series hflags occasions _).mp (hregistered.2 _ hpartition) with
        ⟨round, hround, hentered⟩
      exact (encode_mem_names_series hflags occasions _).mpr
        ⟨round, hround, hentered.availability_of rfl (hfinished round hround)⟩

theorem follows_history (sweep : Sweep) (occasions : List Occasion)
    (registry : Metric.Registry) :
    forall round, round ∈ sweep.history occasions registry -> round.2.FollowsOn round.1 := by
  induction occasions generalizing registry with
  | nil => simp [history]
  | cons occasion rest ih =>
      rcases sweep.proceed_occasion occasion registry with ⟨later, _, hlater⟩
      rw [history_cons, List.forall_mem_cons]
      exact ⟨followsOn_proceed hlater, ih _⟩

structure KeySet (sweep : Sweep) (occasions : List Occasion) : Prop where
  ascending : (series sweep.round occasions .empty).2.names.Pairwise fun first second =>
    Text.bytes first < Text.bytes second
  mem_iff : forall text, text ∈ (series sweep.round occasions .empty).2.names <->
    exists round, round ∈ sweep.history occasions .empty ∧
      exists key, key.encode = text ∧ Enters sweep.role round.1 round.2 key
  follows : forall round, round ∈ sweep.history occasions .empty -> round.2.FollowsOn round.1
  /-- The next round adds the keys that it enters, and no others. -/
  adds : forall (occasion : Occasion) (text : String),
    text ∈ (occasion.play sweep.round (series sweep.round occasions .empty).2).2.names <->
      text ∈ (series sweep.round occasions .empty).2.names ∨
        exists key, key.encode = text ∧
          Enters sweep.role (occasion.planned sweep)
            (occasion.play sweep.round (series sweep.round occasions .empty).2).1 key
  /--
  So it adds none if its topics and partitions are registered.  A shard with topics has
  the latency key registered with them, and one without topics has to find it there; the
  availability key is there as well, since no round crashed that read the partitions.
  -/
  settled : forall (occasion : Occasion) (shard : Shard),
    occasion.planned sweep = .ok shard ->
    (shard.topics ≠ [] ∨ (Metric.Key.latency sweep.role).encode ∈
      (series sweep.round occasions .empty).2.names) ->
    Registered sweep.role shard (series sweep.round occasions .empty).2.names ->
    (forall round, round ∈ sweep.history occasions .empty -> round.2 ≠ .crashed) ->
    (occasion.play sweep.round (series sweep.round occasions .empty).2).2.names =
      (series sweep.round occasions .empty).2.names
  kept : forall (occasion : Occasion) (text : String) (held : Metric.Instrument),
    (series sweep.round occasions .empty).2.get? text = some held ->
    exists changes : List Metric.Change,
      (occasion.play sweep.round (series sweep.round occasions .empty).2).2.get? text =
        some (changes.foldl (fun held change => change.apply held) held)

/--
With all flags on, the keys after any run are exactly those that its rounds
bring in, by what they planned and how they ended.
-/
theorem keySet_series (address : String) (directory : Directory) (role : Role)
    (occasions : List Occasion) :
    KeySet { address, directory, publisher := { role, flags := .all } } occasions where
  ascending := Metric.Registry.names_pairwise _
  mem_iff text := by
    rw [mem_names_series rfl occasions Metric.Registry.kinded_empty]
    exact or_iff_right nofun
  follows := follows_history _ occasions _
  adds occasion _ := mem_names_play rfl occasion
    (kinded_series _ occasions Metric.Registry.kinded_empty)
  settled occasion _ := names_play_of_registered rfl occasions occasion
  kept occasion text held hheld := by
    rw [registry_play]
    exact Metric.Space.get?_stateAfter_some hheld

end Sweep

end Round

end BrokerProbe
