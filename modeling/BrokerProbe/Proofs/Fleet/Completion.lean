import BrokerProbe.Proofs.Crew.Completion
import BrokerProbe.Proofs.Crew.Inquiry
import BrokerProbe.Proofs.Crew.Shutdown
import BrokerProbe.Proofs.Fleet.Startup
import BrokerProbe.Proofs.Round.Enrolled
import BrokerProbe.Proofs.Settings.Validity
import BrokerProbe.Simulated.Factory
/-!
# Valid settings run

Settings that pass their checks start a fleet as long as its clients can be
made.  No round of the fleet misses its own address in the roster, and under a
limit every worker comes to its end with the figures that its own fetches give.
-/

namespace BrokerProbe

theorem Worker.stage_of_verdict? {worker : Worker} {verdict : Worker.Verdict}
    (h : worker.verdict? = some verdict) : worker.stage = .ended verdict := by
  unfold verdict? at h
  split at h
  · next hstage =>
    cases h
    exact hstage
  · cases h

namespace Fleet

open Worker (Closing Deed Ran)

variable {World : Type} {environment : Environment World} {settings : Settings}
variable {clients : Clients World}

/-- What a fleet is provided with: its settings, its clients, its roster and its reporter. -/
structure Provided (environment : Environment World) (settings : Settings)
    (clients : Clients World) : Prop where
  valid : settings.validate = .ok ()
  available : clients.Available
  finds : forall scene : Round.Scene World,
    (scene.reply environment.surroundings (.peers (clients.directory settings.roster))).1 =
      .ok settings.roster
  starts : forall world, (environment.reporter.start world).1 = .ok ()

/-- The failed rounds that a worker of a role counts: a survey is none, whatever it fetches. -/
def failures (role : Role) (exchanges : List Round.Exchange) : Nat :=
  match role with
  | .metadata => 0
  | _ => Round.failedFetches exchanges

theorem failures_eq_countP (role : Role) (exchanges : List Round.Exchange) :
    failures role exchanges =
      exchanges.countP fun exchange => role != .metadata && exchange.isFailedFetch := by
  cases role with
  | metadata => exact (congrFun List.countP_false exchanges).symm
  | consumer => rfl
  | producer => rfl

/-!
# The rounds of a role
-/

theorem asks_round (settings : Settings) (clients : Clients World) (role : Role) :
    (round settings clients role).Asks
      (Round.Question.Within (clients.directory settings.roster)) := by
  cases role with
  | metadata => exact Round.Survey.asks_round_within _ _
  | consumer => exact Round.Sweep.asks_round_within _
  | producer => exact Round.Sweep.asks_round_within _

theorem ending_of_finds (henrols : settings.roster.Enrols settings.address) {role : Role}
    {exchanges : List Round.Exchange} {ending : Round.Ending}
    (h : Dialogue.Conversation (round settings clients role) exchanges ending)
    (hfinds : forall exchange, exchange ∈ exchanges -> exchange.Finds settings.roster) :
    (forall address size, ending ≠ .refused (.notInRoster address size)) ∧
      failures role exchanges = ending.isRefused.toNat := by
  cases role with
  | metadata =>
      rcases Round.Survey.round_inv h with ⟨_, _, _, _, _, outcome, rfl⟩
      exact ⟨nofun, rfl⟩
  | consumer => exact (Round.Sweep.round_way h).enrolled henrols hfinds
  | producer => exact (Round.Sweep.round_way h).enrolled henrols hfinds

theorem isFailure_returned (ending : Round.Ending) :
    (Closing.returned ending).isFailure = ending.isRefused := by
  cases ending <;> rfl

theorem closing_of_finds (henrols : settings.roster.Enrols settings.address) {role : Role}
    {exchanges : List Round.Exchange} {closing : Closing}
    (h : Ran False (fun _ => round settings clients role) exchanges closing)
    (hfinds : forall exchange, exchange ∈ exchanges -> exchange.Finds settings.roster) :
    (forall address size, closing ≠ .returned (.refused (.notInRoster address size))) ∧
      failures role exchanges = closing.isFailure.toNat := by
  cases h with
  | unstarted h => exact h.elim
  | @returned _ _ ending h =>
      rcases ending_of_finds henrols h hfinds with ⟨hlisted, hfailures⟩
      refine ⟨?_, hfailures.trans (by rw [isFailure_returned])⟩
      intro address size heq
      exact hlisted address size (Closing.returned.inj heq)
  | crashed h => exact ⟨nofun, (ending_of_finds henrols h hfinds).2⟩

/-!
# The record of a fleet
-/

def recruits (settings : Settings) (clients : Clients World) : List Recruit :=
  settings.roles.map (recruitFor settings clients)

def gathered (settings : Settings) (clients : Clients World) (after : World) : Record World :=
  Record.gather after (recruits settings clients)

def unlogged (crew : Crew World) : Record World :=
  { crew, log := [] }

theorem prepend_unlogged (record : Record World) :
    (unlogged record.crew).prepend record.log = record := by
  simp [unlogged, Record.prepend]

theorem asks_recruits (settings : Settings) (clients : Clients World) :
    forall recruit, recruit ∈ recruits settings clients -> forall run,
      (recruit.round run).Asks
        (Round.Question.Within (clients.directory settings.roster)) := by
  intro recruit hrecruit run
  rcases List.mem_map.mp hrecruit with ⟨role, _, rfl⟩
  exact asks_round settings clients role

theorem Provided.answers (h : Provided environment settings clients)
    (question : Round.Question) (scene : Round.Scene World)
    (hwithin : question.Within (clients.directory settings.roster)) :
    Round.Exchange.Finds settings.roster
      ⟨question, (scene.reply environment.surroundings question).1⟩ := by
  cases question with
  | peers directory =>
      cases hwithin
      exact h.finds scene
  | _ => trivial

theorem Provided.starts_not_error (h : Provided environment settings clients) :
    forall state error, (environment.reporter.start state).1 = .error error -> False := by
  intro state error herror
  rw [h.starts] at herror
  cases herror

theorem informed_gathered (settings : Settings) (clients : Clients World) (after : World) :
    Record.Informed False (recruits settings clients) (Round.Exchange.Finds settings.roster)
      (gathered settings clients after) fun _ => [] :=
  Record.informed_gather after (recruits settings clients)

section Run

variable {after : World} {acts : List Record.Act} {record : Record World} {index : Nat}

/-- What is known of a run of a fleet goes back to when its workers took their seats. -/
theorem run_gathered
    (hrun : (unlogged (gathered settings clients after).crew).run? environment acts =
      some record) :
    (gathered settings clients after).run? environment acts =
      some (record.prepend (gathered settings clients after).log) := by
  have hprepended := Record.run?_prepend (gathered settings clients after).log hrun
  rwa [prepend_unlogged] at hprepended

theorem Provided.informed (h : Provided environment settings clients)
    (hkeeps : forall act, act ∈ acts -> act.keepsCrew = true)
    (hrun : (unlogged (gathered settings clients after).crew).run? environment acts =
      some record) :
    Record.Informed False (recruits settings clients) (Round.Exchange.Finds settings.roster)
      (record.prepend (gathered settings clients after).log) fun index =>
        (unlogged (gathered settings clients after).crew).exchanges environment index acts := by
  have hinformed := (informed_gathered settings clients after).run
    (asks_recruits settings clients) h.answers h.starts_not_error hkeeps (run_gathered hrun)
  have hexchanges : forall index,
      (gathered settings clients after).exchanges environment index acts =
        (unlogged (gathered settings clients after).crew).exchanges environment index acts := by
    intro index
    rw [<- Record.exchanges_prepend (gathered settings clients after).log
      (unlogged (gathered settings clients after).crew), prepend_unlogged]
  simpa only [List.nil_append, hexchanges] using hinformed

theorem mustered_gathered (hkeeps : forall act, act ∈ acts -> act.keepsCrew = true)
    (hrun : (unlogged (gathered settings clients after).crew).run? environment acts =
      some record) :
    Record.Mustered (recruits settings clients)
      (record.prepend (gathered settings clients after).log) :=
  (Record.fresh_gather after (recruits settings clients)).toMustered.run hkeeps (run_gathered hrun)

theorem Provided.exists_worker (h : Provided environment settings clients)
    (hkeeps : forall act, act ∈ acts -> act.keepsCrew = true)
    (hrun : (unlogged (gathered settings clients after).crew).run? environment acts =
      some record) {role : Role} (hrole : settings.roles[index]? = some role) :
    exists worker, record.crew.workers[index]? = some worker ∧ worker.role = role ∧
      worker.limit = settings.maxRounds ∧
      worker.round = fun _ => round settings clients role := by
  have hrecruit : (recruits settings clients)[index]? =
      some (recruitFor settings clients role) := by
    rw [recruits, List.getElem?_map, hrole]
    rfl
  rcases (mustered_gathered hkeeps hrun).exists_worker hrecruit with
    ⟨worker, hworker, hsame, hlimit⟩
  have hrounds := congrArg (fun rounds => rounds[index]?) (h.informed hkeeps hrun).rounds
  simp only [List.getElem?_map, hrecruit] at hrounds
  have hround : (record.crew.workers[index]?).map Worker.round =
      some fun _ => round settings clients role := hrounds
  have hworker' : record.crew.workers[index]? = some worker := hworker
  rw [hworker', Option.map_some] at hround
  exact ⟨worker, hworker', hsame, hlimit, Option.some.inj hround⟩

theorem Provided.told (h : Provided environment settings clients)
    (hkeeps : forall act, act ∈ acts -> act.keepsCrew = true)
    (hrun : (unlogged (gathered settings clients after).crew).run? environment acts =
      some record) {role : Role} (hrole : settings.roles[index]? = some role) {worker : Worker}
    (hworker : record.crew.workers[index]? = some worker) :
    (forall closing,
      closing ∈ Deed.closings
        ((record.prepend (gathered settings clients after).log).deeds index) ->
      forall address size, closing ≠ .returned (.refused (.notInRoster address size))) ∧
      (worker.stage.between = true ->
        worker.failedRounds =
          failures role ((unlogged (gathered settings clients after).crew).exchanges
            environment index acts)) := by
  have henrols := (settings.validate_eq_ok_iff.mp h.valid).enrols
  have hinformed := h.informed hkeeps hrun
  have htold := hinformed.told index worker hworker
  have hgood := hinformed.good index
  rcases h.exists_worker hkeeps hrun hrole with ⟨same, hsame, _, _, hround⟩
  cases hworker.symm.trans hsame
  constructor
  · intro closing hclosing
    rcases htold.ran hclosing with ⟨part, hpart, hran⟩
    rw [hround] at hran
    exact (closing_of_finds henrols hran fun exchange hexchange =>
      hgood exchange (hpart exchange hexchange)).1
  · intro hbetween
    rw [failures_eq_countP]
    refine htold.failedRounds_eq hbetween ?_
    intro part closing hpart hran
    rw [hround] at hran
    rw [<- failures_eq_countP]
    exact (closing_of_finds henrols hran fun exchange hexchange =>
      hgood exchange (hpart exchange hexchange)).2

theorem length_workers (hkeeps : forall act, act ∈ acts -> act.keepsCrew = true)
    (hrun : (unlogged (gathered settings clients after).crew).run? environment acts =
      some record) : record.crew.workers.length = settings.roles.length := by
  have hlength := (mustered_gathered hkeeps hrun).length_eq
  rwa [recruits, List.length_map] at hlength

theorem Provided.listed (h : Provided environment settings clients)
    (hkeeps : forall act, act ∈ acts -> act.keepsCrew = true)
    (hrun : (unlogged (gathered settings clients after).crew).run? environment acts =
      some record) (phase : Nat) (address : String) (size : Nat) :
    (index, .ended phase (.returned (.refused (.notInRoster address size)))) ∉ record.log := by
  intro hmem
  have hlogged := List.mem_append_right (gathered settings clients after).log hmem
  have hlt : index < record.crew.workers.length :=
    (mustered_gathered hkeeps hrun).account.index_lt _ hlogged
  have hrole := List.getElem?_eq_getElem (length_workers hkeeps hrun ▸ hlt)
  refine (h.told hkeeps hrun hrole (List.getElem?_eq_getElem hlt)).1 _ ?_ address size rfl
  exact List.mem_filterMap.mpr ⟨_, Record.mem_entriesOf.mpr hlogged, rfl⟩

end Run

/-!
# Coming to an end
-/

def summaryOf (limit : Nat) (role : Role) (exchanges : List Round.Exchange) : Worker.Summary :=
  { role, rounds := limit, failedRounds := failures role exchanges, finalPhase := limit - 1 }

def summaries (environment : Environment World) (settings : Settings) (crew : Crew World)
    (limit : Nat) (acts : List Record.Act) : List (Except FleetError Worker.Summary) :=
  settings.roles.mapIdx fun index role =>
    .ok (summaryOf limit role ((unlogged crew).exchanges environment index acts))

section Limit

variable {after : World} {indices : List Nat} {record : Record World} {index limit : Nat}

theorem keepsCrew_moves (indices : List Nat) :
    forall act, act ∈ indices.map Record.Act.move -> act.keepsCrew = true := by
  intro act hact
  rcases List.mem_map.mp hact with ⟨index, _, rfl⟩
  rfl

theorem Provided.undisturbed (h : Provided environment settings clients)
    (hrun : (unlogged (gathered settings clients after).crew).run? environment
      (indices.map .move) = some record) :
    Record.Undisturbed (record.prepend (gathered settings clients after).log) := by
  have hfresh := Record.fresh_gather after (recruits settings clients)
  have hne : recruits settings clients ≠ [] := by
    rw [recruits, ne_eq, List.map_eq_nil_iff]
    exact (settings.validate_eq_ok_iff.mp h.valid).roles_ne_nil
  have hdown := (informed_gathered settings clients after).stopping_run
    (asks_recruits settings clients) h.answers h.starts_not_error id (run_gathered hrun)
  exact (hfresh.undisturbed (hfresh.toMustered.workers_ne_nil hne)).run hfresh.toMustered
    (run_gathered hrun) (hdown.trans hfresh.stopping_eq)

theorem closings_uncrashed
    (huncrashed : forall index phase closing,
      (index, .ended phase closing) ∈ record.log -> closing.isCrash = false) :
    forall closing,
      closing ∈ Deed.closings
        ((record.prepend (gathered settings clients after).log).deeds index) ->
      closing.isCrash = false := by
  have hfresh := Record.fresh_gather after (recruits settings clients)
  intro closing hclosing
  rcases List.mem_filterMap.mp hclosing with ⟨deed, hdeed, heq⟩
  cases deed with
  | ended phase other =>
      cases heq
      rcases List.mem_append.mp (Record.mem_entriesOf.mp hdeed) with hbefore | hlater
      · cases hfresh.log_eq index _ hbefore
      · exact huncrashed index phase closing hlater
  | _ => cases heq

theorem Provided.result (h : Provided environment settings clients)
    (hlimit : settings.maxRounds = some limit)
    (hrun : (unlogged (gathered settings clients after).crew).run? environment
      (indices.map .move) = some record)
    (hended : record.crew.allEnded = true)
    (huncrashed : forall index phase closing,
      (index, .ended phase closing) ∈ record.log -> closing.isCrash = false)
    {role : Role} (hrole : settings.roles[index]? = some role) :
    exists worker, record.crew.workers[index]? = some worker ∧
      result? worker = some (.ok (summaryOf limit role
        ((unlogged (gathered settings clients after).crew).exchanges
          environment index (indices.map .move)))) := by
  have hkeeps := keepsCrew_moves indices
  have hmustered := mustered_gathered hkeeps hrun
  have hundisturbed := h.undisturbed hrun
  rcases h.exists_worker hkeeps hrun hrole with ⟨worker, hworker, hsame, hbound, _⟩
  have hmem := List.mem_of_getElem? hworker
  rcases (hmustered.course hworker).exists_summary (List.all_eq_true.mp hended worker hmem)
    (hmustered.kept worker hmem) (closings_uncrashed huncrashed) with
    ⟨last, _, hverdict, _, hleft⟩
  have hstage := Worker.stage_of_verdict? hverdict
  have hwithin := hundisturbed.within worker limit hmem (hbound.trans hlimit)
  rw [hstage] at hwithin
  have hrounds : worker.rounds = max 1 limit := hwithin
  have hpositive : limit ≠ 0 := by
    rintro rfl
    exact (settings.validate_eq_ok_iff.mp h.valid).maxRounds hlimit
  have hfailed := (h.told hkeeps hrun hrole hworker).2 (by rw [hstage]; rfl)
  have hlast : last + 1 = worker.rounds := by
    rcases hleft with ⟨hchecked, _⟩ | ⟨_, _, hlast⟩
    · exact absurd (Record.mem_entriesOf.mp hchecked) (hundisturbed.unchecked index)
    · rw [hlast, Nat.zero_add]
  refine ⟨worker, hworker, ?_⟩
  have hsummary : worker.summary last = summaryOf limit role
      ((unlogged (gathered settings clients after).crew).exchanges environment index
        (indices.map .move)) := by
    rw [Worker.summary, summaryOf, hsame, hfailed]
    congr 1
    · omega
    · omega
  rw [result?, hverdict, <- hsummary]

theorem Provided.results (h : Provided environment settings clients)
    (hlimit : settings.maxRounds = some limit)
    (hrun : (unlogged (gathered settings clients after).crew).run? environment
      (indices.map .move) = some record)
    (hended : record.crew.allEnded = true)
    (huncrashed : forall index phase closing,
      (index, .ended phase closing) ∈ record.log -> closing.isCrash = false) :
    Fleet.results record.crew =
      summaries environment settings (gathered settings clients after).crew limit
        (indices.map .move) := by
  have hresults : record.crew.workers.map result? =
      (summaries environment settings (gathered settings clients after).crew limit
        (indices.map .move)).map some := by
    apply List.ext_getElem
    · simp [summaries, length_workers (keepsCrew_moves indices) hrun]
    · intro index hworker hrole
      simp only [summaries, List.length_map, List.length_mapIdx] at hworker hrole
      rcases h.result hlimit hrun hended huncrashed (List.getElem?_eq_getElem hrole) with
        ⟨worker, hfound, hresult⟩
      rw [List.getElem?_eq_getElem hworker] at hfound
      cases hfound
      simpa [summaries] using hresult
  have hall : Fleet.results record.crew =
      (record.crew.workers.map result?).filterMap id := by
    rw [List.filterMap_map]
    rfl
  rw [hall, hresults, List.filterMap_map]
  exact List.filterMap_some

end Limit

/-!
# From the settings to the results
-/

/--
How a crew comes to its end that nobody stops.  It can move until all have
ended, and not forever; if no round crashes, each worker then hands back its
summary.
-/
structure Completes (environment : Environment World) (settings : Settings) (crew : Crew World)
    (limit : Nat) (indices : List Nat) (record : Record World) : Prop where
  progress : record.crew.allEnded = false ->
    exists index next, record.move? environment index = some next
  finite : forall schedule, exists count,
    record.run? environment (Record.moves schedule count) = none
  results : record.crew.allEnded = true ->
    (forall index phase closing,
      (index, .ended phase closing) ∈ record.log -> closing.isCrash = false) ->
    Fleet.results record.crew = summaries environment settings crew limit (indices.map .move)

/-- What settings promise that pass their checks. -/
structure Runs (environment : Environment World) (settings : Settings) (launch : Launch World) :
    Prop where
  started : launch.failure = none
  roles : launch.crew.workers.map Worker.role = settings.roles
  /-- Whatever is asked and answered, no round misses its own address in the roster. -/
  listed : forall acts record, (forall act, act ∈ acts -> act.keepsCrew = true) ->
    (unlogged launch.crew).run? environment acts = some record ->
    forall index phase address size,
      (index, .ended phase (.returned (.refused (.notInRoster address size)))) ∉ record.log
  ends : forall limit, settings.maxRounds = some limit -> forall indices record,
    (unlogged launch.crew).run? environment (indices.map .move) = some record ->
    Completes environment settings launch.crew limit indices record

theorem Provided.ends (h : Provided environment settings clients) {after : World}
    {limit : Nat} (hlimit : settings.maxRounds = some limit) {indices : List Nat}
    {record : Record World}
    (hrun : (unlogged (gathered settings clients after).crew).run? environment
      (indices.map .move) = some record) :
    Completes environment settings (gathered settings clients after).crew limit indices
      record := by
  have hmustered := mustered_gathered (keepsCrew_moves indices) hrun
  refine ⟨?_, ?_, h.results hlimit hrun⟩
  · intro hlive
    rcases hmustered.account.exists_move environment hlive with ⟨index, next, hmove⟩
    have hsame := Record.act?_prepend (gathered settings clients after).log environment record
      (.move index)
    rw [Record.act?, hmove] at hsame
    rcases Option.map_eq_some_iff.mp hsame.symm with ⟨moved, hmoved, _⟩
    exact ⟨index, moved, hmoved⟩
  · have hlimits : forall recruit, recruit ∈ recruits settings clients ->
        recruit.limit.isSome = true := by
      intro recruit hrecruit
      rcases List.mem_map.mp hrecruit with ⟨role, _, rfl⟩
      rw [recruitFor, hlimit]
      rfl
    have hbounded : Record.Bounded record := hmustered.bounded hlimits
    exact hbounded.exists_stuck environment

/-- Valid settings run: what they were checked for is all that a fleet needs of them. -/
theorem runs (h : Provided environment settings clients) (world : World) :
    Runs environment settings (start settings clients (.ofWorld world)) := by
  have hvalid := settings.validate_eq_ok_iff.mp h.valid
  rcases start_eq h.available hvalid.producer_not_mem world with ⟨after, hstart⟩
  have hcrew : (start settings clients (.ofWorld world)).crew =
      (gathered settings clients after).crew := congrArg Launch.crew hstart
  refine ⟨congrArg Launch.failure hstart, ?_, ?_, ?_⟩
  · have hterms := (Record.fresh_gather after (recruits settings clients)).terms
    have hroles := congrArg (List.map Prod.fst) hterms
    simp only [List.map_map, recruits] at hroles
    rw [hcrew]
    refine Eq.trans hroles ?_
    simp [Function.comp_def, recruitFor]
  · intro acts record hkeeps hrun index phase address size
    rw [hcrew] at hrun
    exact h.listed hkeeps hrun phase address size
  · intro limit hlimit indices record hrun
    rw [hcrew] at hrun ⊢
    exact h.ends hlimit hrun

def loggedCluster : Environment (Simulated.Cluster × Metric.Logbook) where
  surroundings := Simulated.Cluster.surroundings.ofPart Prod.fst fun world cluster =>
    (cluster, world.2)
  reporter := Metric.Logbook.reporter.ofPart Prod.snd fun world logbook => (world.1, logbook)

def reachable : Clients (Simulated.Cluster × Metric.Logbook) :=
  Simulated.Factory.clients { failTopology := false, failReader := false, service := false }

def twoRoles : Settings :=
  { Settings.ofNames "main" "broker:9092" "probe-1:80" with
    roster := { addresses := ["probe-0:80", "probe-1:80"] }
    roles := [.consumer, .metadata]
    maxRounds := some 2 }

def outage : Simulated.Cluster × Metric.Logbook :=
  ({ Simulated.Cluster.ofTopology [] with topologyDown := true }, .ofCluster "main")

def twoRolesMoves : List Record.Act :=
  (List.replicate 11 0 ++ List.replicate 15 1 ++ List.replicate 14 0 ++
    List.replicate 17 1).map .move

theorem runs_outage :
    Runs loggedCluster twoRoles (start twoRoles reachable (.ofWorld outage)) ∧
      exists record,
        (unlogged (start twoRoles reachable (.ofWorld outage)).crew).run? loggedCluster
          twoRolesMoves = some record ∧
        record.crew.allEnded = true ∧
        results record.crew =
          [.ok { role := .consumer, rounds := 2, failedRounds := 2, finalPhase := 1 },
            .ok { role := .metadata, rounds := 2, failedRounds := 0, finalPhase := 1 }] := by
  have hprovided : Provided loggedCluster twoRoles reachable := by
    refine ⟨by decide +kernel, ⟨?_, ?_⟩, ?_, ?_⟩
    · exact fun _ => rfl
    · exact fun _ => rfl
    · exact fun _ => rfl
    · exact fun _ => rfl
  have hcheck : ((unlogged (start twoRoles reachable (.ofWorld outage)).crew).run? loggedCluster
      twoRolesMoves).any (fun record => record.crew.allEnded &&
        decide (results record.crew =
          [.ok { role := .consumer, rounds := 2, failedRounds := 2, finalPhase := 1 },
            .ok { role := .metadata, rounds := 2, failedRounds := 0, finalPhase := 1 }])) =
      true := by decide +kernel
  rcases (Option.any_eq_true _ _).mp hcheck with ⟨record, hrun, hfacts⟩
  simp only [Bool.and_eq_true, decide_eq_true_eq] at hfacts
  exact ⟨runs hprovided outage, record, hrun, hfacts⟩

end Fleet

end BrokerProbe
