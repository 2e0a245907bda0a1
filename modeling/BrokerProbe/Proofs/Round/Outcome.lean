import BrokerProbe.Proofs.Metric.Handles
import BrokerProbe.Proofs.Metric.Window
import BrokerProbe.Proofs.Round.Protocol
/-!
# What an outcome is about

The overall window of a round holds one sweep, so the latencies of an outcome
are those of its own reads, whatever the rounds before it left in the registry.
Only a round that reads nothing can see more than that: a published window
keeps room for one sample, and nothing pushes the old one out.
-/

namespace BrokerProbe

@[simp] theorem Metric.Statistics.count_ofSamples (samples : List Nat) :
    (ofSamples samples).count = samples.length := by
  cases samples <;> rfl

namespace Round

open Dialogue (Conversation GivenBy stateAfter)

variable {exchanges : List Exchange} {tally : Metric.Tally} {partitions : List Partition}

/-!
# The overall window
-/

namespace Sweep

theorem probeAll_guards {after : Metric.Tally} {space : Metric.Space} {held : Metric.Window}
    (h : Conversation (probeAll tally partitions) exchanges (some after))
    (hgiven : GivenBy Metric.Space.reply space (metricExchanges exchanges))
    (hguards : space.Guards tally.overall held)
    (hbeside : tally.Beside fun handle => handle ≠ tally.overall) :
    after.overall = tally.overall ∧
      (stateAfter Metric.Space.reply space (metricExchanges exchanges)).Guards tally.overall
        (held.recordAll ((samples exchanges).map Prod.snd)) := by
  induction partitions generalizing tally exchanges space held with
  | nil =>
      rcases h.done_inv with ⟨rfl, ⟨⟩⟩
      exact ⟨rfl, hguards⟩
  | cons partition rest ih =>
      rcases h.bind_inv with ⟨first, probed, second, rfl, hfirst, hsecond⟩
      rcases probe_inv hfirst with _ | @⟨elapsed, answer, recorded, middle, hrecorded⟩
      · cases hsecond.done_inv.2
      · rw [metricExchanges_probed, Dialogue.givenBy_append] at hgiven
        rcases Metric.Tally.recordOutcome_guards hrecorded hgiven.1 hguards hbeside with
          ⟨hoverall, hmiddle, hstep⟩
        rw [<- hoverall] at hmiddle hstep
        rcases ih hsecond hgiven.2 hstep hmiddle with ⟨hafter, hend⟩
        rw [metricExchanges_probed, samples_probed, Dialogue.stateAfter_append, <- hoverall]
        exact ⟨hafter, hend⟩

theorem Recorded.latency {sweep : Sweep} {shard : Shard} {outcome : Outcome}
    {recorded : List (Dialogue.Exchange Metric.Question Metric.Answer)}
    {readings : List (Partition × Read)} {space : Metric.Space}
    (h : Recorded sweep shard recorded readings (.completed outcome))
    (hgiven : GivenBy Metric.Space.reply space recorded) :
    exists held : Metric.Window,
      held.capacity = Metric.Window.clamp shard.topics.partitionCount ∧
      (sweep.publisher.flags.latency = false -> held.values = []) ∧
      outcome.latency = .ofSamples
        (held.recordAll ((readings.map Prod.snd).filterMap Read.latency?)).values := by
  rcases h with _ | ⟨hstarts, hprobes, _⟩
  rw [Dialogue.givenBy_append, Dialogue.givenBy_append, Dialogue.givenBy_cons,
    Dialogue.stateAfter_append] at hgiven
  rcases hgiven with ⟨⟨hstarted, hprobed⟩, hread, _⟩
  rcases Metric.Tally.start_guards hstarts hstarted with
    ⟨hbeside, held, hguards, hcapacity, hfresh⟩
  rcases probeAll_guards hprobes hprobed hguards hbeside with ⟨hoverall, hend⟩
  refine ⟨held, hcapacity, hfresh, ?_⟩
  rw [<- map_snd_samples]
  exact hread.trans (Metric.Space.reply_read_fst (hoverall ▸ hend.window))

end Sweep

/-!
# What a round hears
-/

deriving instance DecidableEq for Read

/-- An answer that a round learns something from, without the time of the fetch. -/
inductive Heard where
  | topology (answer : Except ClientError Topology)
  | roster (answer : Except ClientError Roster)
  | read (answer : Read)
  deriving DecidableEq

def Call.heard? : Call -> Option Heard
  | fetch answer => some (.topology answer)
  | peers answer => some (.roster answer)
  | read _ answer => some (.read answer)
  | close => none

def SetUp.heard (setUp : SetUp) : List Heard :=
  setUp.calls.filterMap Call.heard?

theorem heard_reads (readings : List (Partition × Read)) :
    (readings.map Call.ofReading).filterMap Call.heard? =
      (readings.map Prod.snd).map Heard.read := by
  rw [List.filterMap_map, List.map_map, <- List.filterMap_eq_map]
  rfl

theorem SetUp.heard_append_inj {first second : SetUp} {reads others : List Read}
    (h : first.heard ++ reads.map Heard.read = second.heard ++ others.map Heard.read) :
    first = second ∧ reads = others := by
  have hread : Function.Injective (List.map Heard.read) :=
    List.map_injective_iff.mpr fun _ _ h => Heard.read.inj h
  cases first <;> cases second <;> simp_all [heard, calls, Call.heard?, hread.eq_iff]

/-!
# The verdict of a round
-/

namespace Sweep

variable {sweep : Sweep} {setUp : SetUp} {reads : List Read} {ending : Ending}

inductive Verdict (sweep : Sweep) (setUp : SetUp) (reads : List Read) : Ending -> Prop where
  | refused {error : SetupError} (plans : setUp.shard sweep.address = .error error) :
      Verdict sweep setUp reads (.refused error)
  | crashed {shard : Shard} (plans : setUp.shard sweep.address = .ok shard)
      (crashes : .crashed ∈ reads) :
      Verdict sweep setUp reads .crashed
  | completed {shard : Shard} {held : Metric.Window}
      (plans : setUp.shard sweep.address = .ok shard)
      (finishes : .crashed ∉ reads)
      (counts : reads.length = shard.topics.partitionCount)
      (room : held.capacity = Metric.Window.clamp shard.topics.partitionCount)
      (fresh : sweep.publisher.flags.latency = false -> held.values = []) :
      Verdict sweep setUp reads (.completed (sweep.outcomeOf shard reads
        (.ofSamples (held.recordAll (reads.filterMap Read.latency?)).values)))

theorem Way.verdict {space : Metric.Space} (h : Way sweep exchanges ending)
    (hgiven : GivenBy Metric.Space.reply space (metricExchanges exchanges)) :
    exists setUp : SetUp,
      (calls exchanges).filterMap Call.heard? =
        setUp.heard ++ ((readings exchanges).map Prod.snd).map Heard.read ∧
      Verdict sweep setUp ((readings exchanges).map Prod.snd) ending := by
  rcases h with @⟨elapsed, setUp, error, shown, key, hplan, hshows⟩ |
    @⟨elapsed, setUp, shard, measuring, _, hplan, hmeasures⟩
  · refine ⟨setUp, ?_, .refused hplan⟩
    simp [Exchange.entered, Exchange.released, SetUp.heard, Call.heard?]
  · have hreadings : readings (.entered sweep.role .idle .planning ::
        (setUp.exchanges sweep.directory elapsed ++ measuring)) = readings measuring := by
      simp [Exchange.entered]
    have hcalls : calls (.entered sweep.role .idle .planning ::
        (setUp.exchanges sweep.directory elapsed ++ measuring)) =
          setUp.calls ++ ((readings measuring).map Call.ofReading ++ [.close]) := by
      simp [Exchange.entered, hmeasures.calls_eq]
    have hcrashed : forall reading : Partition × Read,
        reading ∈ readings measuring -> reading.2 = .crashed -> ending = .crashed :=
      fun reading hreading hread =>
        hmeasures.records.crashed_iff.mpr ⟨reading.1, hread ▸ hreading⟩
    rw [hreadings]
    refine ⟨setUp, ?_, ?_⟩
    · rw [hcalls, List.filterMap_append, List.filterMap_append, heard_reads]
      exact congrArg _ (List.append_nil _)
    · cases ending with
      | refused error => exact absurd rfl (hmeasures.ne_refused error)
      | crashed =>
          rcases hmeasures.records.crashed_iff.mp rfl with ⟨partition, hreading⟩
          exact .crashed hplan (List.mem_map_of_mem hreading)
      | completed outcome =>
          rw [metricExchanges_cons, metricExchanges_append, SetUp.metricExchanges_exchanges]
            at hgiven
          rcases hmeasures.completed_inv with ⟨hreads, _, latency, rfl⟩
          rcases hmeasures.records.latency hgiven with ⟨held, hroom, hfresh, rfl⟩
          refine .completed hplan ?_ ?_ hroom hfresh
          · intro hmem
            rcases List.mem_map.mp hmem with ⟨reading, hreading, hread⟩
            cases hcrashed reading hreading hread
          · rw [List.length_map, <- Topology.length_partitions, <- hreads, List.length_map]

theorem length_latencies (h : .crashed ∉ reads) :
    (reads.filterMap Read.latency?).length = reads.length := by
  induction reads with
  | nil => rfl
  | cons read rest ih =>
      rw [List.mem_cons, not_or] at h
      cases read with
      | answered elapsed result =>
          cases result <;> exact congrArg (· + 1) (ih h.2)
      | crashed => exact absurd rfl h.1

/--
The latencies of an outcome are the latest of its reads, but for a round that
shows its window and reads nothing: it can find one sample there.
-/
theorem Verdict.completed_inv {outcome : Outcome}
    (h : Verdict sweep setUp reads (.completed outcome)) :
    exists shard latency,
      setUp.shard sweep.address = .ok shard ∧ .crashed ∉ reads ∧
      outcome = sweep.outcomeOf shard reads latency ∧
      (latency = .ofSamples
          ((reads.filterMap Read.latency?).drop (reads.length - Metric.Window.maximum)) ∨
        sweep.publisher.flags.latency = true ∧ reads.length = 0 ∧ latency.count <= 1) := by
  rcases h with _ | _ | @⟨shard, held, hplan, hfinishes, hcounts, hroom, hfresh⟩
  refine ⟨shard, _, hplan, hfinishes, rfl, ?_⟩
  have hlength := length_latencies hfinishes
  have hdropped : reads.length - held.capacity = reads.length - Metric.Window.maximum := by
    rw [hroom, <- hcounts, Metric.Window.sub_clamp]
  by_cases hreads : reads.length = 0
  · cases hflag : sweep.publisher.flags.latency with
    | false =>
        rw [Metric.Window.values_recordAll_of_fresh (hfresh hflag), hlength, hdropped]
        exact .inl rfl
    | true =>
        refine .inr ⟨rfl, hreads, ?_⟩
        rw [Metric.Statistics.count_ofSamples]
        refine Nat.le_trans (Metric.Window.length_values_le _) ?_
        rw [Metric.Window.capacity_recordAll, hroom, <- hcounts, hreads]
        decide
  · have hfull : held.capacity <= (reads.filterMap Read.latency?).length := by
      rw [hroom, <- hcounts, hlength]
      exact Metric.Window.clamp_le_self (Nat.pos_of_ne_zero hreads)
    rw [Metric.Window.values_recordAll_of_capacity_le hfull, hlength, hdropped]
    exact .inl rfl

@[simp] theorem tries_outcomeOf (shard : Shard) (latency : Metric.Statistics) :
    (sweep.outcomeOf shard reads latency).tries = reads.length := rfl

@[simp] theorem latency_outcomeOf (shard : Shard) (latency : Metric.Statistics) :
    (sweep.outcomeOf shard reads latency).latency = latency := rfl

theorem outcomeOf_eq {other : Sweep} (hrole : other.role = sweep.role) (shard : Shard)
    (latency : Metric.Statistics) :
    other.outcomeOf shard reads latency = sweep.outcomeOf shard reads latency := by
  rw [outcomeOf, outcome, hrole]
  rfl

theorem Verdict.count {outcome : Outcome} (h : Verdict sweep setUp reads (.completed outcome)) :
    outcome.latency.count = min outcome.tries Metric.Window.maximum ∨
      sweep.publisher.flags.latency = true ∧ outcome.tries = 0 ∧ outcome.latency.count = 1 := by
  rcases h.completed_inv with ⟨shard, latency, _, hfinishes, rfl, hlatency⟩
  rw [tries_outcomeOf, latency_outcomeOf]
  rcases hlatency with hlatency | ⟨hflag, hreads, hcount⟩
  · rw [hlatency, Metric.Statistics.count_ofSamples, List.length_drop, length_latencies hfinishes]
    exact .inl (Nat.sub_sub_eq_min _ _)
  · rw [hreads, Nat.zero_min]
    rcases Nat.le_one_iff_eq_zero_or_eq_one.mp hcount with hzero | hone
    · exact .inl hzero
    · exact .inr ⟨hflag, rfl, hone⟩

theorem Verdict.agree_completed {other : Sweep} {first second : Outcome}
    (hrole : other.role = sweep.role) (haddress : other.address = sweep.address)
    (hfirst : Verdict sweep setUp reads (.completed first))
    (hsecond : Verdict other setUp reads (.completed second)) :
    second = first ∨
      (sweep.publisher.flags.latency = true ∨ other.publisher.flags.latency = true) ∧
        first.tries = 0 ∧ second = { first with latency := second.latency } := by
  rcases hfirst.completed_inv with ⟨shard, latency, hplan, _, rfl, hlatency⟩
  rcases hsecond.completed_inv with ⟨_, latency', hplan', _, rfl, hlatency'⟩
  rw [haddress, hplan] at hplan'
  cases hplan'
  rw [outcomeOf_eq hrole]
  rcases hlatency with hlatency | ⟨hflag, hreads, _⟩
  · rcases hlatency' with hlatency' | ⟨hflag, hreads, _⟩
    · rw [hlatency, hlatency']
      exact .inl rfl
    · exact .inr ⟨.inr hflag, hreads, rfl⟩
  · exact .inr ⟨.inl hflag, hreads, rfl⟩

theorem Verdict.agree {other : Sweep} {first second : Ending}
    (hrole : other.role = sweep.role) (haddress : other.address = sweep.address)
    (hfirst : Verdict sweep setUp reads first) (hsecond : Verdict other setUp reads second) :
    second = first ∨
      (sweep.publisher.flags.latency = true ∨ other.publisher.flags.latency = true) ∧
        exists outcome latency, outcome.tries = 0 ∧ first = .completed outcome ∧
          second = .completed { outcome with latency } := by
  cases hfirst with
  | refused hplan =>
      cases hsecond with
      | refused hother =>
          rw [haddress, hplan] at hother
          exact .inl (congrArg _ (Except.error.inj hother).symm)
      | crashed hother => cases hplan.symm.trans (haddress ▸ hother)
      | completed hother => cases hplan.symm.trans (haddress ▸ hother)
  | crashed hplan hcrash =>
      cases hsecond with
      | refused hother => cases hplan.symm.trans (haddress ▸ hother)
      | crashed => exact .inl rfl
      | completed _ hfinishes => exact absurd hcrash hfinishes
  | completed hplan hfinishes hcounts hroom hfresh =>
      cases hsecond with
      | refused hother => cases hplan.symm.trans (haddress ▸ hother)
      | crashed _ hcrash => exact absurd hcrash hfinishes
      | completed hother hfinishes' hcounts' hroom' hfresh' =>
          rcases agree_completed hrole haddress
              (.completed hplan hfinishes hcounts hroom hfresh)
              (.completed hother hfinishes' hcounts' hroom' hfresh') with
            heq | ⟨hflags, htries, heq⟩
          · exact .inl (congrArg _ heq)
          · exact .inr ⟨hflags, _, _, htries, rfl, congrArg _ heq⟩

end Sweep

/-!
# Rounds that hear the same
-/

variable {World Other : Type}

def Member.heard (member : Member World) : List Heard :=
  member.calls.filterMap Call.heard?

theorem Member.exists_verdict (member : Member World) :
    exists setUp : SetUp,
      member.heard = setUp.heard ++ (member.readings.map Prod.snd).map Heard.read ∧
      member.sweep.Verdict setUp (member.readings.map Prod.snd) member.ending := by
  have hgiven := (Dialogue.givenBy_transcript (Scene.reply member.surroundings)
    member.sweep.round member.scene).1
  exact (Sweep.round_way (Dialogue.conversation_run _ _ _)).verdict
    (Scene.givenBy_metric hgiven).1

structure Concur (member : Member World) (other : Member Other) : Prop where
  /-- They are equal, but for a latency that a round finds which reads nothing and shows it. -/
  ending : other.ending = member.ending ∨
    (member.sweep.publisher.flags.latency = true ∨
        other.sweep.publisher.flags.latency = true) ∧
      exists outcome latency, outcome.tries = 0 ∧ member.ending = .completed outcome ∧
        other.ending = .completed { outcome with latency }
  /-- Each try is a sample of the latency; without a try there can be one from before. -/
  count : forall outcome, member.ending = .completed outcome ->
    outcome.latency.count = min outcome.tries Metric.Window.maximum ∨
      member.sweep.publisher.flags.latency = true ∧ outcome.tries = 0 ∧
        outcome.latency.count = 1

/-- Rounds of one instance that hear the same end alike, whatever is kept from before. -/
theorem Member.concur {member : Member World} {other : Member Other}
    (hrole : other.sweep.role = member.sweep.role)
    (haddress : other.sweep.address = member.sweep.address)
    (hheard : other.heard = member.heard) : Concur member other := by
  rcases member.exists_verdict with ⟨setUp, hmember, hverdict⟩
  rcases other.exists_verdict with ⟨setUp', hother, hverdict'⟩
  rw [hmember, hother] at hheard
  rcases SetUp.heard_append_inj hheard with ⟨rfl, hreads⟩
  rw [hreads] at hverdict'
  refine ⟨hverdict.agree hrole haddress hverdict', ?_⟩
  intro outcome hending
  rw [hending] at hverdict
  exact hverdict.count

def alone (flags : Metric.Flags) (topology : Topology) (registry : Metric.Registry) :
    Member Simulated.Cluster where
  sweep := {
    address := "probe-1:8080"
    directory := .service
    publisher := { role := .consumer, flags } }
  surroundings := Simulated.Cluster.surroundings
  scene := { space := .ofRegistry registry, stopping := false, world := .ofTopology topology }

def orders : Topology := [{ name := "orders", numbers := [0] }]

def latencyOnly : Metric.Flags := { Metric.Flags.none with latency := true }

def used : Metric.Registry :=
  (alone latencyOnly orders .empty).sceneAfter.space.registry

theorem Member.concur_used :
    (alone .none orders .empty).heard = (alone latencyOnly orders used).heard ∧
      Concur (alone latencyOnly orders used) (alone .none orders .empty) := by
  have hheard : (alone .none orders .empty).heard = (alone latencyOnly orders used).heard := by
    decide +kernel
  exact ⟨hheard, concur rfl rfl hheard⟩

def Ending.count? : Ending -> Option Nat
  | completed outcome => some outcome.latency.count
  | _ => none

/-- A latency from before shows up in a round that has nothing to read. -/
theorem Member.leftover :
    (alone latencyOnly [] .empty).heard = (alone latencyOnly [] used).heard ∧
      (alone latencyOnly [] .empty).ending ≠ (alone latencyOnly [] used).ending := by
  have hcount : (alone latencyOnly [] .empty).ending.count? ≠
      (alone latencyOnly [] used).ending.count? := by
    decide +kernel
  exact ⟨by decide +kernel, ne_of_apply_ne Ending.count? hcount⟩

end Round

end BrokerProbe
