import BrokerProbe.Fleet
import BrokerProbe.Proofs.Crew.Muster
/-!
# Starting a fleet

A fleet sets up its workers in the order of their roles, each with the clients
that its role needs, up to the first that it cannot.  With clients that can be
made, a fleet for roles that it supports is a crew that has gathered: one worker
for each role, seated in their order, and none of them has moved.
-/

namespace BrokerProbe

namespace Record

variable {World : Type}

def inWorld (record : Record World) (world : World) : Record World :=
  { record with crew := { record.crew with floor := { record.crew.floor with world } } }

theorem join_inWorld (record : Record World) (world : World) (recruit : Recruit) :
    (record.inWorld world).join recruit = (record.join recruit).inWorld world := by
  have hbarrier : (record.inWorld world).crew.floor.barrier = record.crew.floor.barrier := rfl
  rw [join_eq, join_eq, hbarrier]
  cases record.crew.floor.barrier.terminated <;> rfl

theorem terminated_join (record : Record World) (recruit : Recruit) :
    (record.join recruit).crew.floor.barrier.terminated =
      record.crew.floor.barrier.terminated := by
  rw [join_eq]
  split <;> rfl

end Record

/-!
# The clients of a role
-/

inductive Clients.Part where
  | topology
  | reader
  deriving DecidableEq, Repr

def Role.parts : Role -> List Clients.Part
  | consumer => [.topology, .reader]
  | producer => []
  | metadata => [.topology]

namespace Clients

variable {World : Type}

def make (clients : Clients World) : Part -> World -> Except ClientError Unit × World
  | .topology, world => clients.topology world
  | .reader, world => clients.reader world

inductive Makes (clients : Clients World) : World -> List Part -> World -> Prop where
  | nil (world : World) : Makes clients world [] world
  | cons {world after : World} {part : Part} {rest : List Part}
      (hmade : (clients.make part world).1 = .ok ())
      (hrest : Makes clients (clients.make part world).2 rest after) :
      Makes clients world (part :: rest) after

/-- Why a worker of a role cannot be set up, and the world that is left. -/
inductive Lacks (clients : Clients World) : World -> Role -> FleetError -> World -> Prop where
  | unsupported (world : World) :
      Lacks clients world .producer (.unsupported .producer) world
  | unmade {world middle : World} {role : Role} {before rest : List Part} {part : Part}
      {cause : ClientError} (hparts : role.parts = before ++ part :: rest)
      (hmakes : Makes clients world before middle)
      (hfails : (clients.make part middle).1 = .error cause) :
      Lacks clients world role (.client cause) (clients.make part middle).2

variable {clients : Clients World} {world middle after : World}

theorem Makes.append {first second : List Part} (hfirst : clients.Makes world first middle)
    (hsecond : clients.Makes middle second after) :
    clients.Makes world (first ++ second) after := by
  induction hfirst with
  | nil => exact hsecond
  | cons hmade _ ih => exact .cons hmade (ih hsecond)

structure Available (clients : Clients World) : Prop where
  topology : forall world, (clients.topology world).1 = .ok ()
  reader : forall world, (clients.reader world).1 = .ok ()

theorem Available.make (h : clients.Available) (part : Part) (world : World) :
    (clients.make part world).1 = .ok () := by
  cases part with
  | topology => exact h.topology world
  | reader => exact h.reader world

theorem Available.not_lacks (h : clients.Available) {role : Role} (hrole : role ≠ .producer)
    {error : FleetError} : ¬ clients.Lacks world role error after := by
  intro hlacks
  cases hlacks with
  | unsupported => exact hrole rfl
  | unmade _ _ hfails =>
      rw [h.make] at hfails
      cases hfails

end Clients

namespace Fleet

variable {World : Type} {settings : Settings} {clients : Clients World}

/-!
# Setting up one worker
-/

def recruitFor (settings : Settings) (clients : Clients World) (role : Role) : Recruit where
  role
  limit := settings.maxRounds
  round := fun _ => round settings clients role
  aside := none

theorem makes_of_connect {role : Role} {world : World}
    (h : (connect clients role world).1 = .ok ()) :
    role ≠ .producer ∧ clients.Makes world role.parts (connect clients role world).2 := by
  cases role with
  | producer => cases h
  | metadata =>
      cases hmade : (clients.topology world).1 with
      | error => simp [connect, hmade, Except.mapError] at h
      | ok => exact ⟨nofun, .cons hmade (.nil _)⟩
  | consumer =>
      cases hmade : (clients.topology world).1 with
      | error => simp [connect, hmade] at h
      | ok =>
          simp only [connect, hmade] at h ⊢
          cases hread : (clients.reader (clients.topology world).2).1 with
          | error => simp [hread, Except.mapError] at h
          | ok => exact ⟨nofun, .cons hmade (.cons hread (.nil _))⟩

theorem lacks_of_connect {role : Role} {world : World} {error : FleetError}
    (h : (connect clients role world).1 = .error error) :
    clients.Lacks world role error (connect clients role world).2 := by
  cases role with
  | producer =>
      cases h
      exact .unsupported world
  | metadata =>
      have hparts : Role.metadata.parts = [] ++ .topology :: [] := rfl
      cases hmade : (clients.topology world).1 with
      | ok => simp [connect, hmade, Except.mapError] at h
      | error cause =>
          simp only [connect, hmade, Except.mapError, Except.error.injEq] at h ⊢
          subst h
          exact .unmade hparts (.nil _) hmade
  | consumer =>
      have hparts : Role.consumer.parts = [] ++ .topology :: [.reader] := rfl
      have hlast : Role.consumer.parts = [.topology] ++ .reader :: [] := rfl
      cases hmade : (clients.topology world).1 with
      | error cause =>
          simp only [connect, hmade, Except.error.injEq] at h ⊢
          subst h
          exact .unmade hparts (.nil _) hmade
      | ok =>
          simp only [connect, hmade] at h ⊢
          cases hread : (clients.reader (clients.topology world).2).1 with
          | ok => simp [hread, Except.mapError] at h
          | error cause =>
              simp only [hread, Except.mapError, Except.error.injEq] at h
              subst h
              exact .unmade hlast (.cons hmade (.nil _)) hread

theorem recruit_of_ok (settings : Settings) {role : Role} {record : Record World}
    (hopen : record.crew.floor.barrier.terminated = false)
    (h : (connect clients role record.crew.floor.world).1 = .ok ()) :
    recruit settings clients role record.crew =
      (.ok (), ((record.inWorld (connect clients role record.crew.floor.world).2).join
        (recruitFor settings clients role)).crew) := by
  rw [recruit]
  simp only [h]
  rw [Record.join_eq]
  simp [Record.inWorld, hopen, Crew.join, Barrier.register, Barrier.enlist, recruitFor,
    Except.mapError]

theorem recruit_of_error {role : Role} {record : Record World} {error : FleetError}
    (h : (connect clients role record.crew.floor.world).1 = .error error) :
    recruit settings clients role record.crew =
      (.error error,
        (record.inWorld (connect clients role record.crew.floor.world).2).crew) := by
  rw [recruit]
  simp only [h]
  rfl

/-!
# Setting up all workers
-/

/--
How setting up workers for roles goes from a world on: the answer, the roles
that have a worker now, and the world that is left.
-/
inductive Recruits (clients : Clients World) :
    World -> List Role -> Except FleetError Unit -> List Role -> World -> Prop where
  | done (world : World) : Recruits clients world [] (.ok ()) [] world
  | joined {world middle after : World} {role : Role} {rest built : List Role}
      {answer : Except FleetError Unit} (hrole : role ≠ .producer)
      (hmakes : clients.Makes world role.parts middle)
      (hrest : Recruits clients middle rest answer built after) :
      Recruits clients world (role :: rest) answer (role :: built) after
  | failed {world after : World} {role : Role} {rest : List Role} {error : FleetError}
      (hlacks : clients.Lacks world role error after) :
      Recruits clients world (role :: rest) (.error error) [] after

theorem recruitAll_recruits (settings : Settings) (clients : Clients World) (roles : List Role)
    {record : Record World} (hopen : record.crew.floor.barrier.terminated = false) :
    exists answer built after,
      Recruits clients record.crew.floor.world roles answer built after ∧
      recruitAll settings clients roles record.crew =
        (answer, ((built.map (recruitFor settings clients)).foldl Record.join
          (record.inWorld after)).crew) := by
  induction roles generalizing record with
  | nil => exact ⟨.ok (), [], record.crew.floor.world, .done _, rfl⟩
  | cons role rest ih =>
      cases hconnected : (connect clients role record.crew.floor.world).1 with
      | error error =>
          refine ⟨.error error, [], _, .failed (lacks_of_connect hconnected), ?_⟩
          rw [recruitAll, recruit_of_error hconnected]
          rfl
      | ok =>
          rcases makes_of_connect hconnected with ⟨hrole, hmakes⟩
          have hjoined := recruit_of_ok settings hopen hconnected
          generalize (connect clients role record.crew.floor.world).2 = middle at hmakes hjoined
          have hstays := Record.terminated_join (record.inWorld middle)
            (recruitFor settings clients role)
          rcases ih (hstays.trans hopen) with ⟨answer, built, after, hrecruits, hrest⟩
          rw [Record.join_inWorld] at hrecruits
          refine ⟨answer, role :: built, after, .joined hrole hmakes hrecruits, ?_⟩
          rw [recruitAll, hjoined]
          refine hrest.trans ?_
          rw [Record.join_inWorld, List.map_cons, List.foldl_cons, Record.join_inWorld]
          rfl

theorem Recruits.of_available (h : clients.Available) {world after : World}
    {roles built : List Role} {answer : Except FleetError Unit}
    (hrecruits : Recruits clients world roles answer built after)
    (hroles : .producer ∉ roles) : answer = .ok () ∧ built = roles := by
  induction hrecruits with
  | done => exact ⟨rfl, rfl⟩
  | joined _ _ _ ih =>
      rw [List.mem_cons, not_or] at hroles
      rcases ih hroles.2 with ⟨hanswer, hbuilt⟩
      exact ⟨hanswer, by rw [hbuilt]⟩
  | failed hlacks =>
      rw [List.mem_cons, not_or] at hroles
      exact absurd hlacks (h.not_lacks (Ne.symm hroles.1))

/-- A start is a crew that has gathered, or what is left of one when it is disbanded. -/
theorem exists_start_eq (settings : Settings) (clients : Clients World) (world : World) :
    exists answer built after,
      Recruits clients world settings.roles answer built after ∧
      start settings clients (.ofWorld world) =
        match answer with
        | .ok _ =>
            { failure := none
              crew := (Record.gather after (built.map (recruitFor settings clients))).crew }
        | .error error =>
            { failure := some error
              crew := disband
                (Record.gather after (built.map (recruitFor settings clients))).crew } := by
  have hopen : (Record.ofWorld world).crew.floor.barrier.terminated = false := rfl
  rcases recruitAll_recruits settings clients settings.roles hopen with
    ⟨answer, built, after, hrecruits, hall⟩
  have hcrew : (Record.ofWorld world).crew = { floor := .ofWorld world, workers := [] } := rfl
  refine ⟨answer, built, after, hrecruits, ?_⟩
  rw [start, <- hcrew, hall]
  cases answer <;> rfl

theorem start_eq (h : clients.Available) (hroles : .producer ∉ settings.roles) (world : World) :
    exists after, start settings clients (.ofWorld world) =
      { failure := none
        crew :=
          (Record.gather after (settings.roles.map (recruitFor settings clients))).crew } := by
  rcases exists_start_eq settings clients world with ⟨answer, built, after, hrecruits, hstart⟩
  rcases hrecruits.of_available h hroles with ⟨rfl, rfl⟩
  exact ⟨after, hstart⟩

end Fleet

end BrokerProbe
