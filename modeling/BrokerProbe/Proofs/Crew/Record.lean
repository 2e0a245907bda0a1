import BrokerProbe.Proofs.Worker.Course
import BrokerProbe.Simulated.Site
import BrokerProbe.Worker.Crew
/-!
# Records of crews

A record is a crew together with a log of what its workers have done, each deed
under the index of its worker.  Anything may happen in any order: workers join
while others run, are dropped before they run, move one step, and the flag that
asks them to stop is raised at any time.  `Account` is what holds of every
record.
-/

namespace BrokerProbe

open Worker (Deed OnCourse Passage)

structure Recruit where
  role : Role
  limit : Option Nat
  round : Nat -> Round.Asking Round.Ending
  aside : Option String

structure Record (World : Type) where
  crew : Crew World
  log : List (Nat × Deed)

namespace Record

variable {World : Type}

inductive Act where
  | join (recruit : Recruit)
  | abandon (index : Nat)
  | stop
  | move (index : Nat)

def ofWorld (world : World) : Record World :=
  { crew := .ofWorld world, log := [] }

def join (record : Record World) (recruit : Recruit) : Record World :=
  let joined := record.crew.join recruit.role recruit.limit recruit.round recruit.aside
  match joined.1 with
  | .ok _ =>
      { crew := joined.2
        log := record.log ++
          [(record.crew.workers.length, .joined record.crew.floor.barrier.phase)] }
  | .error _ => { record with crew := joined.2 }

def abandon? (record : Record World) (index : Nat) : Option (Record World) := do
  let worker <- record.crew.workers[index]?
  match worker.stage with
  | .ready =>
      if worker.rounds = 0 then
        some { record with
          crew := { record.crew with workers := record.crew.workers.set index worker.abandon } }
      else none
  | _ => none

def move? (environment : Environment World) (record : Record World) (index : Nat) :
    Option (Record World) := do
  let worker <- record.crew.workers[index]?
  let crew <- record.crew.step? environment index
  return { crew, log := record.log ++ (worker.deed? record.crew.floor).toList.map (index, ·) }

def act? (environment : Environment World) (record : Record World) : Act -> Option (Record World)
  | .join recruit => some (record.join recruit)
  | .abandon index => record.abandon? index
  | .stop => some { record with crew := record.crew.requestStop }
  | .move index => record.move? environment index

def run? (environment : Environment World) (record : Record World) (acts : List Act) :
    Option (Record World) :=
  acts.foldlM (act? environment) record

def entriesOf {Entry : Type} (log : List (Nat × Entry)) (index : Nat) : List Entry :=
  (log.filter fun entry => entry.1 == index).map Prod.snd

def deeds (record : Record World) (index : Nat) : List Deed :=
  entriesOf record.log index

def rehearsed (role : Role) (limit : Option Nat) (script : List Simulated.Cue) : Recruit :=
  { role, limit, round := Simulated.scripted role script, aside := none }

def emptySite : Simulated.Site :=
  { cluster := .ofTopology [], journal := .blank false false }

/-!
# Logs
-/

theorem entriesOf_append {Entry : Type} (log more : List (Nat × Entry)) (index : Nat) :
    entriesOf (log ++ more) index = entriesOf log index ++ entriesOf more index := by
  simp [entriesOf]

theorem entriesOf_map_self {Entry : Type} (index : Nat) (entries : List Entry) :
    entriesOf (entries.map (index, ·)) index = entries := by
  induction entries with
  | nil => rfl
  | cons entry rest ih => simpa [entriesOf] using ih

theorem entriesOf_map_of_ne {Entry : Type} {index other : Nat} (h : other ≠ index)
    (entries : List Entry) : entriesOf (entries.map (index, ·)) other = [] := by
  simp only [entriesOf, List.map_eq_nil_iff, List.filter_eq_nil_iff]
  intro indexed hindexed
  rcases List.mem_map.mp hindexed with ⟨entry, _, rfl⟩
  simpa using Ne.symm h

theorem mem_entriesOf {Entry : Type} {log : List (Nat × Entry)} {index : Nat} {entry : Entry} :
    entry ∈ entriesOf log index <-> (index, entry) ∈ log := by
  constructor
  · intro hentries
    rcases List.mem_map.mp hentries with ⟨entry, hentry, rfl⟩
    rcases List.mem_filter.mp hentry with ⟨hlog, hindex⟩
    have heq : entry.1 = index := by simpa using hindex
    rwa [<- heq]
  · intro hlog
    exact List.mem_map.mpr ⟨_, List.mem_filter.mpr ⟨hlog, by simp⟩, rfl⟩

/-!
# What can happen
-/

variable {environment : Environment World} {record next : Record World}

theorem run?_cons_eq_some {act : Act} {rest : List Act}
    (h : record.run? environment (act :: rest) = some next) :
    exists middle, record.act? environment act = some middle ∧
      middle.run? environment rest = some next := by
  rw [run?, List.foldlM_cons] at h
  exact Option.bind_eq_some_iff.mp h

theorem run?_keeps {Kept : Record World -> Prop} {acts : List Act}
    (hstep : forall record next act, act ∈ acts -> Kept record ->
      record.act? environment act = some next -> Kept next)
    (hkept : Kept record) (hrun : record.run? environment acts = some next) : Kept next := by
  induction acts generalizing record with
  | nil =>
      cases hrun
      exact hkept
  | cons act rest ih =>
      rcases run?_cons_eq_some hrun with ⟨middle, hact, hrest⟩
      apply ih _ (hstep record middle act List.mem_cons_self hkept hact) hrest
      intro first second other hother
      exact hstep first second other (List.mem_cons_of_mem act hother)

theorem join_eq (record : Record World) (recruit : Recruit) :
    record.join recruit =
      if record.crew.floor.barrier.terminated then record
      else
        { crew :=
            { floor := { record.crew.floor with barrier := record.crew.floor.barrier.enlist }
              workers := record.crew.workers ++
                [.seated recruit.role recruit.limit recruit.round recruit.aside
                  record.crew.floor.barrier.nextParticipant] }
          log := record.log ++
            [(record.crew.workers.length, .joined record.crew.floor.barrier.phase)] } := by
  cases hclosed : record.crew.floor.barrier.terminated with
  | true => simp [join, Crew.join, Barrier.register, hclosed]
  | false => simp [join, Crew.join, Barrier.register, hclosed, Barrier.enlist]

theorem abandon?_eq_some {index : Nat} (h : record.abandon? index = some next) :
    exists worker, record.crew.workers[index]? = some worker ∧ worker.stage = .ready ∧
      worker.rounds = 0 ∧
      next = { record with
        crew := { record.crew with workers := record.crew.workers.set index worker.abandon } } := by
  cases hworker : record.crew.workers[index]? with
  | none => simp [abandon?, hworker] at h
  | some worker =>
      simp only [abandon?, hworker, Option.bind_eq_bind, Option.bind_some] at h
      split at h
      · next hstage =>
        split at h
        · next hrounds =>
          cases h
          exact ⟨worker, rfl, hstage, hrounds, rfl⟩
        · cases h
      · cases h

theorem move?_eq_some {index : Nat} (h : record.move? environment index = some next) :
    exists worker moved floor, record.crew.workers[index]? = some worker ∧
      worker.step? environment record.crew.floor = some (moved, floor) ∧
      next =
        { crew := { floor, workers := record.crew.workers.set index moved }
          log := record.log ++
            (worker.deed? record.crew.floor).toList.map (index, ·) } := by
  cases hworker : record.crew.workers[index]? with
  | none => simp [move?, hworker] at h
  | some worker =>
      cases hstep : worker.step? environment record.crew.floor with
      | none => simp [move?, Crew.step?, hworker, hstep] at h
      | some result =>
          simp only [move?, Crew.step?, hworker, hstep, Option.bind_eq_bind, Option.bind_some,
            Option.pure_def, Option.some.injEq] at h
          exact ⟨worker, result.1, result.2, rfl, hstep, h.symm⟩

theorem stopping_act {act : Act} (hup : record.crew.floor.stopping = true)
    (h : record.act? environment act = some next) : next.crew.floor.stopping = true := by
  cases act with
  | join recruit =>
      cases h
      rw [join_eq]
      split
      · exact hup
      · exact hup
  | abandon index =>
      rcases abandon?_eq_some h with ⟨worker, _, _, _, rfl⟩
      exact hup
  | stop =>
      cases h
      rfl
  | move index =>
      rcases move?_eq_some h with ⟨worker, moved, floor, _, hstep, rfl⟩
      exact (Worker.passage_of_step hstep).stopping hup

/-- What happens is logged as at most one deed, with the phase and the flag as they were. -/
theorem log_act {act : Act} (h : record.act? environment act = some next) :
    next.log = record.log ∨
      exists index deed, deed.Fits record.crew.floor ∧
        next.log = record.log ++ [(index, deed)] := by
  cases act with
  | join recruit =>
      cases h
      rw [join_eq]
      split
      · exact Or.inl rfl
      · refine Or.inr ⟨_, _, ?_, rfl⟩
        exact rfl
  | abandon index =>
      rcases abandon?_eq_some h with ⟨worker, _, _, _, rfl⟩
      exact Or.inl rfl
  | stop =>
      cases h
      exact Or.inl rfl
  | move index =>
      rcases move?_eq_some h with ⟨worker, moved, floor, _, _, rfl⟩
      cases hdeed : worker.deed? record.crew.floor with
      | none => exact Or.inl (by simp)
      | some deed => exact Or.inr ⟨index, deed, Worker.Deed.fits_of_deed? hdeed, rfl⟩

end Record

end BrokerProbe
