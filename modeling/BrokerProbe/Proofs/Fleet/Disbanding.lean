import BrokerProbe.Proofs.Crew.Progress
import BrokerProbe.Proofs.Fleet.Startup
/-!
# A fleet that cannot start

If some worker cannot be set up, those before it are dropped in their order.
Each of them gives its seat back without having run, so the barrier is left with
nobody, and all that has happened is that clients were made.
-/

namespace BrokerProbe

namespace Record

open Worker (Deed)

variable {World : Type} {record : Record World}

def drops (indices : List Nat) : List Act :=
  indices.flatMap fun index => [.abandon index, .move index]

/-- A worker that has not run since the first phase gives its seat back when it is dropped. -/
theorem Account.run?_drop (h : Account record) (environment : Environment World) {index : Nat}
    {worker : Worker} (hworker : record.crew.workers[index]? = some worker)
    (hready : worker.stage = .ready) (hrounds : worker.rounds = 0)
    (hjoined : (index, .joined 0) ∈ record.log) :
    record.run? environment [.abandon index, .move index] = some {
      crew := {
        floor := { record.crew.floor with
          barrier := (record.crew.floor.barrier.leave worker.participant).2 }
        workers := record.crew.workers.set index (worker.move (.ended .abandoned)) }
      log := record.log ++ [(index, .left 0)] } := by
  rcases h.course index worker hworker with ⟨entry, hcourse⟩
  obtain rfl := hcourse.eq_entry (mem_entriesOf.mpr hjoined)
  rcases hcourse with ⟨past, done, latest, hold, hcourse⟩
  have hpast : past.length = 0 := by
    have hlength := hcourse.rounds_eq
    rw [hrounds, List.length_append] at hlength
    omega
  have hleg := hcourse.leg
  rw [hready, hpast] at hleg
  have hleft : (record.crew.floor.barrier.leave worker.participant).1 = .ok 0 := by
    cases hleg
    exact hcourse.hold_at.leave.1
  have habandon : record.abandon? index = some { record with
      crew := { record.crew with
        workers := record.crew.workers.set index worker.abandon } } := by
    simp only [abandon?, hworker, hready, hrounds, Option.bind_eq_bind, Option.bind_some, if_true]
  have hset : (record.crew.workers.set index worker.abandon)[index]? = some worker.abandon :=
    List.getElem?_set_self (List.getElem?_eq_some_iff.mp hworker).1
  have hstep : worker.abandon.step? environment record.crew.floor =
      some (worker.move (.ended .abandoned), { record.crew.floor with
        barrier := (record.crew.floor.barrier.leave worker.participant).2 }) := rfl
  have hdeed : worker.abandon.deed? record.crew.floor = some (.left 0) := by
    simp [Worker.deed?, Worker.abandon, hleft, Deed.ofAnswer]
  rw [run?, List.foldlM_cons, act?, habandon]
  simp only [List.foldlM_cons, List.foldlM_nil, act?, move?, Crew.step?, hset, hstep, hdeed,
    Option.bind_eq_bind, Option.bind_some, Option.pure_def, Option.toList_some,
    List.map_singleton, List.set_set]

theorem Account.run?_drops (environment : Environment World) {before rest : List Worker}
    (h : Account record) (hworkers : record.crew.workers = before ++ rest)
    (hready : forall worker, worker ∈ rest -> worker.stage = .ready ∧ worker.rounds = 0)
    (hjoined : forall index, index < record.crew.workers.length ->
      (index, .joined 0) ∈ record.log) :
    record.run? environment (drops (List.range' before.length rest.length)) = some {
      crew := {
        floor := { record.crew.floor with
          barrier := rest.foldl (fun barrier worker => (barrier.leave worker.participant).2)
            record.crew.floor.barrier }
        workers := before ++ rest.map fun worker => worker.move (.ended .abandoned) }
      log := record.log ++ (List.range' before.length rest.length).map (·, .left 0) } := by
  induction rest generalizing before record with
  | nil =>
      rcases record with ⟨⟨floor, workers⟩, log⟩
      simp only [List.append_nil] at hworkers
      subst hworkers
      simp [drops, run?]
  | cons worker rest ih =>
      have hworker : record.crew.workers[before.length]? = some worker := by simp [hworkers]
      have hmem := hready worker List.mem_cons_self
      have hlt := (List.getElem?_eq_some_iff.mp hworker).1
      have hdrop := h.run?_drop environment hworker hmem.1 hmem.2 (hjoined _ hlt)
      have hset : record.crew.workers.set before.length (worker.move (.ended .abandoned)) =
          (before ++ [worker.move (.ended .abandoned)]) ++ rest := by simp [hworkers]
      rw [hset] at hdrop
      have hrest := ih (h.run hdrop) rfl
        (fun other hother => hready other (List.mem_cons_of_mem _ hother)) ?_
      · have hsplit : drops (List.range' before.length (worker :: rest).length) =
            [.abandon before.length, .move before.length] ++
              drops (List.range' (before.length + 1) rest.length) := by
          simp [drops, List.range'_succ]
        rw [List.length_append, List.length_singleton] at hrest
        rw [hsplit, run?, List.foldlM_append]
        rw [run?] at hdrop hrest
        rw [hdrop]
        simpa [List.range'_succ] using hrest
      · intro index hindex
        refine List.mem_append_left _ (hjoined index ?_)
        simp only [hworkers, List.length_append, List.length_cons, List.length_nil] at hindex ⊢
        omega

/-!
# A crew that has gathered
-/

theorem log_gather (world : World) (recruits : List Recruit) :
    (gather world recruits).log = (List.range recruits.length).map (·, .joined 0) := by
  induction recruits using List.reverseRecOn with
  | nil => rfl
  | append_singleton front recruit ih =>
      have hfresh := fresh_gather world front
      rw [gather, List.foldl_append]
      rw [gather] at ih hfresh
      simp [join_eq, hfresh.terminated_eq, hfresh.phase_eq, hfresh.length_eq, ih,
        List.range_succ]

theorem runs_gather (world : World) (recruits : List Recruit) :
    forall worker, worker ∈ (gather world recruits).crew.workers -> worker.runs = 0 := by
  induction recruits using List.reverseRecOn with
  | nil => exact fun _ hworker => absurd hworker List.not_mem_nil
  | append_singleton front recruit ih =>
      have hfresh := fresh_gather world front
      rw [gather, List.foldl_append]
      rw [gather] at ih hfresh
      intro worker hworker
      simp only [List.foldl_cons, List.foldl_nil, join_eq, hfresh.terminated_eq] at hworker
      rcases List.mem_append.mp hworker with hold | hnew
      · exact ih worker hold
      · rw [List.mem_singleton.mp hnew]
        rfl

theorem floor_gather (world : World) (recruits : List Recruit) :
    exists barrier, (gather world recruits).crew.floor = { Floor.ofWorld world with barrier } := by
  induction recruits using List.reverseRecOn with
  | nil => exact ⟨.new, rfl⟩
  | append_singleton front recruit ih =>
      rw [gather, List.foldl_append]
      rw [gather] at ih
      rcases ih with ⟨barrier, hfloor⟩
      rw [List.foldl_cons, List.foldl_nil, join_eq, hfloor]
      split
      · exact ⟨barrier, hfloor⟩
      · exact ⟨barrier.enlist, rfl⟩

@[simp] theorem world_gather (world : World) (recruits : List Recruit) :
    (gather world recruits).crew.floor.world = world := by
  rcases floor_gather world recruits with ⟨barrier, hfloor⟩
  rw [hfloor]
  rfl

@[simp] theorem registry_gather (world : World) (recruits : List Recruit) :
    (gather world recruits).crew.floor.registry = .empty := by
  rcases floor_gather world recruits with ⟨barrier, hfloor⟩
  rw [hfloor]
  rfl

end Record

/-!
# Making clients
-/

namespace Clients

variable {World : Type} {clients : Clients World} {world middle after : World}

theorem Makes.of_append {first second : List Part} (hfirst : clients.Makes world first middle)
    (hall : clients.Makes world (first ++ second) after) :
    clients.Makes middle second after := by
  induction hfirst with
  | nil => exact hall
  | cons _ _ ih =>
      cases hall with
      | cons _ hrest => exact ih hrest

theorem Makes.not_lacks {role : Role} {rest : List Part} {error : FleetError} {left : World}
    (hrole : role ≠ .producer) (hmakes : clients.Makes world (role.parts ++ rest) after) :
    ¬ clients.Lacks world role error left := by
  intro hlacks
  cases hlacks with
  | unsupported => exact hrole rfl
  | unmade hparts hbefore hfails =>
      rw [hparts, List.append_assoc] at hmakes
      cases hbefore.of_append hmakes with
      | cons hmade _ =>
          rw [hmade] at hfails
          cases hfails

def Spares {View : Type} (clients : Clients World) (view : World -> View) : Prop :=
  forall part world, view (clients.make part world).2 = view world

theorem Makes.view_eq {View : Type} {view : World -> View} (hspares : clients.Spares view)
    {parts : List Part} (h : clients.Makes world parts after) : view after = view world := by
  induction h with
  | nil => rfl
  | cons _ _ ih => exact ih.trans (hspares _ _)

theorem Lacks.view_eq {View : Type} {view : World -> View} (hspares : clients.Spares view)
    {role : Role} {error : FleetError} (h : clients.Lacks world role error after) :
    view after = view world := by
  cases h with
  | unsupported => rfl
  | unmade _ hmakes _ => exact (hspares _ _).trans (hmakes.view_eq hspares)

end Clients

namespace Fleet

variable {World : Type} {settings : Settings} {clients : Clients World}
variable {world after : World} {roles built : List Role} {answer : Except FleetError Unit}

namespace Recruits

theorem producer_not_mem (h : Recruits clients world roles answer built after) :
    .producer ∉ built := by
  induction h with
  | done => exact List.not_mem_nil
  | joined hrole _ _ ih => exact List.not_mem_cons_of_ne_of_not_mem (Ne.symm hrole) ih
  | failed => exact List.not_mem_nil

theorem of_ok (h : Recruits clients world roles (.ok ()) built after) :
    built = roles ∧ clients.Makes world (roles.flatMap Role.parts) after := by
  generalize hanswer : (.ok () : Except FleetError Unit) = answer at h
  induction h with
  | done world => exact ⟨rfl, .nil world⟩
  | joined _ hmakes _ ih =>
      rcases ih hanswer with ⟨hbuilt, hrest⟩
      rw [hbuilt, List.flatMap_cons]
      exact ⟨rfl, hmakes.append hrest⟩
  | failed => cases hanswer

theorem of_error {error : FleetError}
    (h : Recruits clients world roles (.error error) built after) :
    exists role rest middle, roles = built ++ role :: rest ∧
      clients.Makes world (built.flatMap Role.parts) middle ∧
      clients.Lacks middle role error after := by
  generalize hanswer : (.error error : Except FleetError Unit) = answer at h
  induction h with
  | done => cases hanswer
  | joined _ hmakes _ ih =>
      rcases ih hanswer with ⟨role, rest, middle, hroles, hbefore, hlacks⟩
      refine ⟨role, rest, middle, by rw [hroles, List.cons_append], ?_, hlacks⟩
      rw [List.flatMap_cons]
      exact hmakes.append hbefore
  | failed hlacks =>
      cases hanswer
      exact ⟨_, _, _, rfl, .nil _, hlacks⟩

theorem eq_ok (h : Recruits clients world roles answer built after)
    (hroles : .producer ∉ roles) {final : World}
    (hmakes : clients.Makes world (roles.flatMap Role.parts) final) : answer = .ok () := by
  induction h with
  | done => rfl
  | joined _ hmade _ ih =>
      rw [List.mem_cons, not_or] at hroles
      rw [List.flatMap_cons] at hmakes
      exact ih hroles.2 (hmade.of_append hmakes)
  | failed hlacks =>
      rw [List.mem_cons, not_or] at hroles
      rw [List.flatMap_cons] at hmakes
      exact absurd hlacks (Clients.Makes.not_lacks (Ne.symm hroles.1) hmakes)

theorem view_eq {View : Type} {view : World -> View} (hspares : clients.Spares view)
    (h : Recruits clients world roles answer built after) : view after = view world := by
  induction h with
  | done => rfl
  | joined _ hmakes _ ih => exact ih.trans (hmakes.view_eq hspares)
  | failed hlacks => exact hlacks.view_eq hspares

end Recruits

/-!
# What is left of a fleet
-/

/-- What a crew leaves behind that had workers for some roles and was disbanded before it ran. -/
structure Disbanded (settings : Settings) (clients : Clients World) (built : List Role)
    (crew : Crew World) : Prop where
  workers_eq : crew.workers = []
  seats_eq : crew.floor.barrier.seats = []
  registry_eq : crew.floor.registry = .empty
  dropped : forall environment : Environment World, exists record,
    (Record.gather crew.floor.world (built.map (recruitFor settings clients))).run? environment
      (Record.drops (List.range built.length)) = some record ∧
    record.crew.floor = crew.floor ∧
    (forall worker, worker ∈ record.crew.workers ->
      worker.verdict? = some .abandoned ∧ worker.runs = 0) ∧
    record.log = (List.range built.length).map (·, .joined 0) ++
      (List.range built.length).map (·, .left 0)

theorem run?_drops_gather (environment : Environment World) (world : World)
    (recruits : List Recruit) :
    exists record,
      (Record.gather world recruits).run? environment
        (Record.drops (List.range recruits.length)) = some record ∧
      record.crew.floor = (disband (Record.gather world recruits).crew).floor ∧
      (forall worker, worker ∈ record.crew.workers ->
        worker.verdict? = some .abandoned ∧ worker.runs = 0) ∧
      record.log = (List.range recruits.length).map (·, .joined 0) ++
        (List.range recruits.length).map (·, .left 0) := by
  have hfresh := Record.fresh_gather world recruits
  have hworkers : (Record.gather world recruits).crew.workers =
      [] ++ (Record.gather world recruits).crew.workers := rfl
  have hrun := hfresh.account.run?_drops environment hworkers hfresh.ready hfresh.joined
  rw [hfresh.length_eq, List.length_nil, <- List.range_eq_range'] at hrun
  refine ⟨_, hrun, rfl, ?_, by rw [Record.log_gather]⟩
  intro worker hworker
  rcases List.mem_map.mp hworker with ⟨seated, hseated, rfl⟩
  exact ⟨rfl, Record.runs_gather world recruits seated hseated⟩

theorem seats_disband (world : World) (recruits : List Recruit) :
    (disband (Record.gather world recruits).crew).floor.barrier.seats = [] := by
  -- Any surroundings will do, since no worker runs.
  let environment : Environment World := {
    surroundings := {
      fetch := fun world => (⟨0, .ok []⟩, world)
      close := id
      peers := fun world => (.ok ⟨[]⟩, world)
      read := fun _ world => (.crashed, world)
      tell := fun _ world => world }
    reporter := {
      start := fun world => (.ok (), world)
      report := fun _ world => (.ok (), world)
      stop := id } }
  rcases run?_drops_gather environment world recruits with ⟨record, hrun, hfloor, hended, _⟩
  have haccount := (Record.fresh_gather world recruits).account.run hrun
  rw [<- hfloor]
  apply haccount.seats_of_allEnded
  apply List.all_eq_true.mpr
  intro worker hworker
  rw [Worker.hasEnded, (hended worker hworker).1]
  rfl

theorem disbanded (settings : Settings) (clients : Clients World) (world : World)
    (built : List Role) :
    Disbanded settings clients built
      (disband (Record.gather world (built.map (recruitFor settings clients))).crew) := by
  refine ⟨rfl, seats_disband world _, Record.registry_gather _ _, fun environment => ?_⟩
  have hdropped := run?_drops_gather environment world (built.map (recruitFor settings clients))
  have hworld := Record.world_gather world (built.map (recruitFor settings clients))
  rw [List.length_map] at hdropped
  rw [disband, hworld]
  exact hdropped

/-- What can become of a start. -/
structure Startup (settings : Settings) (clients : Clients World) (world : World)
    (launch : Launch World) : Prop where
  /-- A fleet starts exactly if its roles are supported and all their clients can be made. -/
  started_iff : launch.failure = none <->
    .producer ∉ settings.roles ∧
      exists after, clients.Makes world (settings.roles.flatMap Role.parts) after
  /-- Else the first role that lacks something tells why; those before it leave nobody behind. -/
  refused : forall error, launch.failure = some error ->
    exists built role rest middle, settings.roles = built ++ role :: rest ∧
      .producer ∉ built ∧ clients.Makes world (built.flatMap Role.parts) middle ∧
      clients.Lacks middle role error launch.crew.floor.world ∧
      Disbanded settings clients built launch.crew
  /-- Nothing is asked of the world but to make clients. -/
  spared : forall (View : Type) (view : World -> View), clients.Spares view ->
    view launch.crew.floor.world = view world

theorem startup (settings : Settings) (clients : Clients World) (world : World) :
    Startup settings clients world (start settings clients (.ofWorld world)) := by
  rcases exists_start_eq settings clients world with ⟨answer, built, after, hrecruits, hstart⟩
  have hworld := Record.world_gather after (built.map (recruitFor settings clients))
  cases answer with
  | ok =>
      rw [hstart]
      refine ⟨⟨fun _ => ?_, fun _ => rfl⟩, nofun, fun View view hspares => ?_⟩
      · rcases hrecruits.of_ok with ⟨rfl, hmakes⟩
        exact ⟨hrecruits.producer_not_mem, after, hmakes⟩
      · rw [hworld]
        exact hrecruits.view_eq hspares
  | error error =>
      rw [hstart]
      refine ⟨⟨nofun, ?_⟩, ?_, fun View view hspares => ?_⟩
      · intro hable
        rcases hable with ⟨hroles, final, hmakes⟩
        cases hrecruits.eq_ok hroles hmakes
      · intro other hother
        cases hother
        rcases hrecruits.of_error with ⟨role, rest, middle, hroles, hmakes, hlacks⟩
        refine ⟨built, role, rest, middle, hroles, hrecruits.producer_not_mem, hmakes, ?_,
          disbanded settings clients after built⟩
        rw [disband, hworld]
        exact hlacks
      · rw [disband, hworld]
        exact hrecruits.view_eq hspares

end Fleet

end BrokerProbe
