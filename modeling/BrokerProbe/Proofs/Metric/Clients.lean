import BrokerProbe.Metric.Space
import BrokerProbe.Proofs.Metric.Pool
/-!
# The clients of a registry

The calls of all clients, in the order in which the registry takes them.  The
first of them that offers something to a key decides which instrument the key
has, for good; the rest are handed this instrument or are refused, and all that
they do to it meets in the one place.  The registry that runs says the same as
the shared instruments do.
-/

namespace BrokerProbe

namespace Metric

theorem Registry.get?_foldl_install {Item : Type} (shows : Item -> Instrument)
    (items : List (String × Item)) (registry : Registry) (key : String) :
    (items.foldl (fun registry item => registry.install item.1 (shows item.2)) registry).get?
        key = (registry.get? key).or ((items.lookup key).map shows) := by
  induction items generalizing registry with
  | nil => exact (Option.or_none).symm
  | cons item rest ih =>
      rw [List.foldl_cons, ih, get?_install, lookup_entry]
      split
      · next heq =>
        rw [heq]
        cases registry.get? item.1 <;> rfl
      · rfl

namespace Pool

variable {pool : Pool} {call : Call} {calls before after : List Call} {offer : Offer}
variable {key : String} {number : Nat}

/-!
# Runs of calls
-/

theorem run_append (pool : Pool) (before after : List Call) :
    pool.run (before ++ after) = (pool.run before).run after :=
  List.foldl_append ..

theorem AllowsAll.of_append (h : pool.AllowsAll (before ++ after)) :
    pool.AllowsAll before ∧ (pool.run before).AllowsAll after := by
  induction before generalizing pool with
  | nil => exact ⟨trivial, h⟩
  | cons call rest ih =>
      rcases h with ⟨hcall, hrest⟩
      exact ⟨⟨hcall, (ih hrest).1⟩, (ih hrest).2⟩

theorem Sound.run (h : pool.Sound) (hallows : pool.AllowsAll calls) : (pool.run calls).Sound := by
  induction calls generalizing pool with
  | nil => exact h
  | cons call rest ih => exact ih (h.answer hallows.1) hallows.2

theorem sound_empty : empty.Sound := by
  intro key number h
  cases h

theorem held?_answer_of_some (h : pool.held? key = some number) (call : Call) :
    (pool.answer call).2.held? key = some number := by
  rw [held?_answer, h, Option.some_or]

theorem held?_run_of_some (h : pool.held? key = some number) (calls : List Call) :
    (pool.run calls).held? key = some number := by
  induction calls generalizing pool with
  | nil => exact h
  | cons call rest ih => exact ih (held?_answer_of_some h call)

theorem held?_run_eq_none_iff :
    (pool.run calls).held? key = none <->
      pool.held? key = none ∧
        forall call, call ∈ calls -> forall offer, call.offer? ≠ some (key, offer) := by
  induction calls generalizing pool with
  | nil => simp [run]
  | cons call rest ih =>
      have hbrings : pool.brings? call key = none <->
          forall offer, call.offer? ≠ some (key, offer) := by
        unfold brings?
        cases call.offer? with
        | none => simp
        | some offered => simp [Prod.ext_iff, eq_comm]
      rw [show pool.run (call :: rest) = (pool.answer call).2.run rest from rfl, ih,
        held?_answer, Option.or_eq_none_iff, hbrings, List.forall_mem_cons, and_assoc]

structure Installs (pool : Pool) (call : Call) (key : String) (number : Nat) : Prop where
  absent : pool.held? key = none
  brings : pool.brings? call key = some number

theorem held?_run_iff :
    (pool.run calls).held? key = some number <->
      pool.held? key = some number ∨
        exists before call after, calls = before ++ call :: after ∧
          (pool.run before).Installs call key number := by
  constructor
  · intro h
    induction calls generalizing pool with
    | nil => exact .inl h
    | cons call rest ih =>
        have hrest : ((pool.answer call).2.run rest).held? key = some number := h
        rcases ih hrest with hheld | ⟨before, later, after, rfl, hlater⟩
        · rw [held?_answer] at hheld
          cases hbefore : pool.held? key with
          | some held => exact .inl (by rw [hbefore, Option.some_or] at hheld; exact hheld)
          | none =>
              rw [hbefore, Option.none_or] at hheld
              exact .inr ⟨[], call, rest, rfl, hbefore, hheld⟩
        · exact .inr ⟨call :: before, later, after, rfl, hlater⟩
  · rintro (h | ⟨before, call, after, rfl, habsent, hbrings⟩)
    · exact held?_run_of_some h calls
    · have hgiven : ((pool.run before).answer call).2.held? key = some number := by
        rw [held?_answer, habsent, Option.none_or, hbrings]
      rw [run_append]
      exact held?_run_of_some hgiven after

theorem contents_run (h : pool.Has number) (calls : List Call) :
    (pool.run calls).contents number =
      (calls.filterMap (Call.changeOf? number)).foldl (fun held change => change.apply held)
        (pool.contents number) := by
  induction calls generalizing pool with
  | nil => rfl
  | cons call rest ih =>
      have hanswer := contents_answer pool call h
      rw [List.filterMap_cons]
      cases hchange : call.changeOf? number with
      | none =>
          rw [hchange] at hanswer
          exact (ih (h.answer call)).trans (by rw [hanswer]; rfl)
      | some change =>
          rw [hchange] at hanswer
          exact (ih (h.answer call)).trans (by rw [hanswer]; rfl)

theorem shape_run (h : pool.Has number) (calls : List Call) :
    ((pool.run calls).contents number).shape = (pool.contents number).shape := by
  rw [contents_run h, Change.shape_foldl]

/-!
# The registry that runs
-/

def view (pool : Pool) : Registry :=
  pool.held.foldl (fun registry entry => registry.install entry.1 (pool.contents entry.2)) .empty

def shows (pool : Pool) : Offer -> Instrument
  | .new instrument => instrument
  | .made number => pool.contents number

def tells (pool : Pool) : Reply -> Except RegistryError (Option Instrument)
  | .handle number => .ok (some (pool.contents number))
  | .absent => .ok none
  | .finished => .ok none
  | .refused error => .error error

theorem get?_view (pool : Pool) (key : String) :
    pool.view.get? key = (pool.held? key).map pool.contents := by
  rw [view, Registry.get?_foldl_install, Registry.get?_empty, Option.none_or]
  rfl

theorem mem_names_view_iff : key ∈ pool.view.names <-> pool.held? key ≠ none := by
  rw [Registry.mem_names_iff_ne_none, get?_view, Ne, Option.map_eq_none_iff]

theorem contents_put_of_has (h : pool.Has number) (key : String) (offer : Offer) :
    (pool.put key offer).2.contents number = pool.contents number := by
  rcases pool.made_put key offer with ⟨more, hmore⟩
  exact contents_of_made hmore h

theorem contents_put (pool : Pool) (key : String) (offer : Offer) :
    (pool.put key offer).2.contents (pool.put key offer).1 = pool.shows offer := by
  cases offer with
  | new instrument => simp [put, take, make, contents, shows]
  | made number => rfl

theorem view_put (hsound : pool.Sound) (habsent : pool.held? key = none) (offer : Offer) :
    (pool.put key offer).2.view = pool.view.install key (pool.shows offer) := by
  apply Registry.ext_get?
  intro other
  rw [get?_view, held?_put, Registry.get?_install, get?_view, get?_view, habsent]
  split
  · exact congrArg some (contents_put pool key offer)
  · refine Option.map_congr ?_
    intro number hheld
    exact contents_put_of_has (hsound other number hheld) key offer

theorem getOrInstall_view (hsound : pool.Sound) (key : String) (offer : Offer) :
    pool.view.getOrInstall key (pool.shows offer) =
      ((pool.getOrPut key offer).2.contents (pool.getOrPut key offer).1,
        (pool.getOrPut key offer).2.view) := by
  unfold Registry.getOrInstall getOrPut
  rw [get?_view]
  cases hheld : pool.held? key with
  | some number => rfl
  | none =>
      refine Prod.ext ?_ ?_
      · exact (contents_put pool key offer).symm
      · exact (view_put hsound hheld offer).symm

end Pool

def Registry.answer? (registry : Registry) (shows : Offer -> Instrument) :
    Call -> Option (Except RegistryError (Option Instrument) × Registry)
  | .register key offer =>
      match registry.register key (shows offer) with
      | .ok registry => some (.ok none, registry)
      | .error error => some (.error error, registry)
  | .getOrRegister key offer =>
      let given := registry.getOrInstall key (shows offer)
      some (.ok given.1, given.2)
  | .window key capacity =>
      let given := registry.window key capacity
      some (given.1.map fun window => some (.window window), given.2)
  | .gauge key =>
      let given := registry.gauge key
      some (given.1.map fun value => some (.gauge value), given.2)
  | .get key => some (.ok (registry.get? key), registry)
  | .make _ => none
  | .change _ _ => none

namespace Pool

variable {pool : Pool} {call : Call} {calls before after : List Call} {offer : Offer}
variable {key : String} {number : Nat}
variable {result : Except RegistryError (Option Instrument) × Registry}

/-- The registry that runs gives the answers of the shared instruments, and shows them next. -/
theorem answer?_view (hsound : pool.Sound)
    (h : pool.view.answer? pool.shows call = some result) :
    result = ((pool.answer call).2.tells (pool.answer call).1, (pool.answer call).2.view) := by
  -- Each call asks first whether the key has an instrument, and the view has the same keys.
  cases call with
  | register own offered =>
      simp only [Registry.answer?, Registry.register] at h
      simp only [answer]
      cases hheld : pool.held? own with
      | some held =>
          rw [if_pos (by rw [Registry.contains_iff, get?_view, hheld]; simp)] at h
          exact (Option.some.inj h).symm
      | none =>
          rw [if_neg (by rw [Registry.contains_iff, get?_view, hheld]; simp)] at h
          rw [view_put hsound hheld]
          exact (Option.some.inj h).symm
  | getOrRegister own offered =>
      simp only [Registry.answer?, getOrInstall_view hsound] at h
      exact (Option.some.inj h).symm
  | window own capacity =>
      have hgiven : pool.view.getOrInstall own (.window (.empty capacity)) = _ :=
        getOrInstall_view hsound own (.new (.window (.empty capacity)))
      simp only [Registry.answer?, Registry.window, hgiven] at h
      simp only [answer, claim]
      generalize pool.getOrPut own (.new (.window (.empty capacity))) = given at h
      cases hcontents : given.2.contents given.1 with
      | window held =>
          simp only [hcontents] at h
          rw [if_pos (show (Instrument.window held).shape = .histogram from rfl), tells, hcontents]
          exact (Option.some.inj h).symm
      | gauge value =>
          simp only [hcontents] at h
          exact (Option.some.inj h).symm
  | gauge own =>
      have hgiven : pool.view.getOrInstall own (.gauge 0) = _ :=
        getOrInstall_view hsound own (.new (.gauge 0))
      simp only [Registry.answer?, Registry.gauge, hgiven] at h
      simp only [answer, claim]
      generalize pool.getOrPut own (.new (.gauge 0)) = given at h
      cases hcontents : given.2.contents given.1 with
      | window held =>
          simp only [hcontents] at h
          exact (Option.some.inj h).symm
      | gauge value =>
          simp only [hcontents] at h
          rw [if_pos (show (Instrument.gauge value).shape = .gauge from rfl), tells, hcontents]
          exact (Option.some.inj h).symm
  | get own =>
      rw [answer_get_snd]
      simp only [Registry.answer?, get?_view] at h
      simp only [answer]
      cases hheld : pool.held? own with
      | some held =>
          rw [hheld] at h
          exact (Option.some.inj h).symm
      | none =>
          rw [hheld] at h
          exact (Option.some.inj h).symm
  | make instrument => cases h
  | change own applied => cases h

/-!
# Changes through handles
-/

end Pool

def Change.question (key : String) : Change -> Question
  | window (.resize capacity) => .resize (.published key) capacity
  | window (.record value) => .record (.published key) value
  | set value => .set key value

theorem Change.registry_reply (change : Change) (key : String) (space : Space) :
    (Space.reply (change.question key) space).2.registry =
      space.registry.change key change.apply := by
  rcases change with (_ | _) | _ <;>
    simp only [question, Space.reply, Space.changeWindow, Space.setGauge] <;>
    congr 1 <;> funext held <;> cases held <;> rfl

namespace Pool

variable {pool : Pool} {call : Call} {calls before after : List Call} {offer : Offer}
variable {key : String} {number : Nat}

theorem get?_view_change (hsound : pool.Sound) (number : Nat) (change : Change) (key : String) :
    (pool.change number change).view.get? key =
      (pool.view.get? key).map
        (if pool.held? key = some number then change.apply else id) := by
  rw [get?_view, get?_view, Option.map_map]
  refine Option.map_congr ?_
  intro own hown
  have hheld : pool.held? key = some own := hown
  have hcontents : (pool.change number change).contents own = _ :=
    contents_answer pool (.change number change) (hsound key own hheld)
  rw [hcontents, hheld, Call.changeOf?]
  by_cases heq : number = own
  · rw [if_pos heq, if_pos (congrArg some heq.symm)]
    rfl
  · rw [if_neg heq, if_neg fun h => heq (Option.some.inj h).symm]
    rfl

theorem view_change (hsound : pool.Sound) (change : Change) (hheld : pool.held? key = some number)
    (hsole : forall other, pool.held? other = some number -> other = key) (space : Space)
    (hspace : space.registry = pool.view) :
    (pool.change number change).view =
      (Space.reply (change.question key) space).2.registry := by
  rw [change.registry_reply, hspace]
  apply Registry.ext_get?
  intro other
  rw [get?_view_change hsound, Registry.get?_change]
  split
  · next hother => rw [if_pos (hsole other hother), hsole other hother]
  · next hother =>
    rw [if_neg fun heq : other = key => hother (heq ▸ hheld), Option.map_id, id]

/-!
# Handles and refusals
-/

theorem answer_handle (hkey : call.key? = some key)
    (h : (pool.answer call).1 = .handle number) :
    (pool.answer call).2.held? key = some number := by
  have hgiven : forall offer, (pool.getOrPut key offer).2.held? key =
      some (pool.getOrPut key offer).1 := by
    intro offer
    unfold getOrPut
    split
    · next hheld => exact hheld
    · rw [held?_put, if_pos rfl]
      rfl
  have hclaim : forall shape instrument, (pool.claim key shape instrument).1 = .handle number ->
      (pool.claim key shape instrument).2.held? key = some number := by
    intro shape instrument hhandle
    rw [claim_fst] at hhandle
    split at hhandle
    · rw [claim_snd, hgiven]
      exact congrArg some (Reply.handle.inj hhandle)
    · cases hhandle
  cases call with
  | getOrRegister own offer =>
      cases hkey
      rw [<- Reply.handle.inj h]
      exact hgiven offer
  | window own capacity =>
      cases hkey
      exact hclaim _ _ h
  | gauge own =>
      cases hkey
      exact hclaim _ _ h
  | get own =>
      cases hkey
      rw [answer_get_snd]
      simp only [answer] at h
      split at h
      · next hheld => exact hheld.trans (congrArg some (Reply.handle.inj h))
      · cases h
  | _ => cases hkey

def Holds (pool : Pool) (key : String) (shape : Shape) : Prop :=
  exists number, pool.held? key = some number ∧ (pool.contents number).shape = shape

theorem claim_refused_iff {shape : Shape} {instrument : Instrument} {error : RegistryError}
    (hshape : instrument.shape = shape) :
    (pool.claim key shape instrument).1 = .refused error <->
      error = .mismatch key shape ∧ exists other, other ≠ shape ∧ pool.Holds key other := by
  rw [claim_fst]
  cases hheld : pool.held? key with
  | none =>
      have hput : pool.getOrPut key (.new instrument) = pool.put key (.new instrument) := by
        rw [getOrPut, hheld]
      rw [hput, contents_put, shows, if_pos hshape]
      simp [Holds, hheld]
  | some number =>
      rw [getOrPut_of_some hheld]
      by_cases heq : (pool.contents number).shape = shape
      · simp [Holds, hheld, heq, eq_comm]
      · simp [Holds, hheld, heq, Ne.symm heq, eq_comm]

theorem register_refused_iff {error : RegistryError} :
    (pool.answer (.register key offer)).1 = .refused error <->
      error = .duplicate key ∧ pool.held? key ≠ none := by
  simp only [answer]
  cases pool.held? key with
  | none => simp
  | some number => simp [eq_comm]

theorem answer_of_refused {error : RegistryError} (h : (pool.answer call).1 = .refused error) :
    (pool.answer call).2 = pool := by
  have hclaim : forall key shape instrument, instrument.shape = shape ->
      (pool.claim key shape instrument).1 = .refused error ->
      (pool.claim key shape instrument).2 = pool := by
    intro key shape instrument hshape hrefused
    rcases (claim_refused_iff hshape).mp hrefused with ⟨_, _, _, number, hheld, _⟩
    rw [claim_snd, getOrPut_of_some hheld]
  cases call with
  | window own capacity => exact hclaim _ _ _ rfl h
  | gauge own => exact hclaim _ _ _ rfl h
  | register own offer =>
      simp only [answer] at h ⊢
      split
      · rfl
      · next hheld =>
        rw [hheld] at h
        cases h
  | get own => exact pool.answer_get_snd own
  | make instrument => cases h
  | getOrRegister own offer => cases h
  | change own applied => cases h

end Pool

/-!
# What a registry keeps
-/

/-- What holds of a registry and its clients after calls of theirs, in the order it took them. -/
structure KeepsFirst (calls : List Call) : Prop where
  stays : forall before after, calls = before ++ after ->
    forall key number, (Pool.empty.run before).held? key = some number ->
      (Pool.empty.run calls).held? key = some number ∧
        ((Pool.empty.run calls).contents number).shape =
          ((Pool.empty.run before).contents number).shape
  /-- It is the instrument that the first call with an offer for the key brought. -/
  first : forall key number, (Pool.empty.run calls).held? key = some number <->
    exists before call after offer, calls = before ++ call :: after ∧
      (forall earlier, earlier ∈ before -> forall other, earlier.offer? ≠ some (key, other)) ∧
      call.offer? = some (key, offer) ∧ ((Pool.empty.run before).take offer).1 = number
  /-- There it shows what it contained when it was brought. -/
  brought : forall before call after, calls = before ++ call :: after ->
    forall key offer, (Pool.empty.run before).held? key = none ->
      call.offer? = some (key, offer) ->
      ((Pool.empty.run before).answer call).2.view.get? key =
        some ((Pool.empty.run before).shows offer)
  /-- Whoever is handed an instrument for the key is handed this one. -/
  handed : forall before call after, calls = before ++ call :: after ->
    forall key number, call.key? = some key ->
      ((Pool.empty.run before).answer call).1 = .handle number ->
      (Pool.empty.run calls).held? key = some number
  /-- The key shows what was done through all handles of its instrument, in order. -/
  shared : forall before after, calls = before ++ after ->
    forall key number, (Pool.empty.run before).held? key = some number ->
      (Pool.empty.run calls).view.get? key =
        some ((after.filterMap (Call.changeOf? number)).foldl
          (fun held change => change.apply held) ((Pool.empty.run before).contents number))
  register_refused : forall before after key offer error,
    calls = before ++ .register key offer :: after ->
      (((Pool.empty.run before).answer (.register key offer)).1 = .refused error <->
        error = .duplicate key ∧ (Pool.empty.run before).view.contains key = true)
  window_refused : forall before after key capacity error,
    calls = before ++ .window key capacity :: after ->
      (((Pool.empty.run before).answer (.window key capacity)).1 = .refused error <->
        error = .mismatch key .histogram ∧
          exists value, (Pool.empty.run before).view.get? key = some (.gauge value))
  gauge_refused : forall before after key error, calls = before ++ .gauge key :: after ->
    (((Pool.empty.run before).answer (.gauge key)).1 = .refused error <->
      error = .mismatch key .gauge ∧
        exists held, (Pool.empty.run before).view.get? key = some (.window held))
  unchanged : forall before call after error, calls = before ++ call :: after ->
    ((Pool.empty.run before).answer call).1 = .refused error ->
    ((Pool.empty.run before).answer call).2 = Pool.empty.run before
  listed : forall key, key ∈ (Pool.empty.run calls).view.names <->
    exists call, call ∈ calls ∧ exists offer, call.offer? = some (key, offer)
  ascending : (Pool.empty.run calls).view.names.Pairwise fun first second =>
    Text.bytes first < Text.bytes second
  read : (Pool.empty.run calls).view.readings.map Prod.fst = (Pool.empty.run calls).view.names
  counted : (Pool.empty.run calls).view.size = (Pool.empty.run calls).view.names.length
  /-- The registry that runs answers each call in the same way, and then shows the same. -/
  answered : forall before call after, calls = before ++ call :: after ->
    forall result,
      (Pool.empty.run before).view.answer? (Pool.empty.run before).shows call = some result ->
      result = (((Pool.empty.run before).answer call).2.tells
          ((Pool.empty.run before).answer call).1,
        ((Pool.empty.run before).answer call).2.view)
  /-- So does the space that runs with a change to an instrument of one key. -/
  changed : forall before number change after, calls = before ++ .change number change :: after ->
    forall key, (Pool.empty.run before).held? key = some number ->
      (forall other, (Pool.empty.run before).held? other = some number -> other = key) ->
      forall detached,
        ((Pool.empty.run before).answer (.change number change)).2.view =
          (Space.reply (change.question key)
            { registry := (Pool.empty.run before).view, detached }).2.registry

namespace Pool

variable {calls : List Call}

theorem first_iff {key : String} {number : Nat} :
    (empty.run calls).held? key = some number <->
      exists before call after offer, calls = before ++ call :: after ∧
        (forall earlier, earlier ∈ before -> forall other, earlier.offer? ≠ some (key, other)) ∧
        call.offer? = some (key, offer) ∧ ((empty.run before).take offer).1 = number := by
  rw [held?_run_iff, or_iff_right (by rintro ⟨⟩)]
  constructor
  · rintro ⟨before, call, after, hcalls, habsent, hbrings⟩
    rcases brings?_eq_some hbrings with ⟨offer, hoffer, hnumber⟩
    have hnone := (held?_run_eq_none_iff.mp habsent).2
    exact ⟨before, call, after, offer, hcalls, hnone, hoffer, hnumber⟩
  · rintro ⟨before, call, after, offer, hcalls, hnone, hoffer, hnumber⟩
    refine ⟨before, call, after, hcalls, held?_run_eq_none_iff.mpr ⟨rfl, hnone⟩, ?_⟩
    rw [brings?, hoffer]
    exact (if_pos rfl).trans (congrArg some hnumber)

theorem holds_histogram_iff {pool : Pool} {key : String} :
    (exists other, other ≠ .gauge ∧ pool.Holds key other) <->
      exists held, pool.view.get? key = some (.window held) := by
  simp only [get?_view, Holds, Option.map_eq_some_iff]
  constructor
  · rintro ⟨_, hne, number, hheld, rfl⟩
    cases hcontents : pool.contents number with
    | window held => exact ⟨held, number, hheld, hcontents⟩
    | gauge value => exact absurd (by rw [hcontents]; rfl) hne
  · rintro ⟨held, number, hheld, hcontents⟩
    exact ⟨.histogram, by decide, number, hheld, by rw [hcontents]; rfl⟩

theorem holds_gauge_iff {pool : Pool} {key : String} :
    (exists other, other ≠ .histogram ∧ pool.Holds key other) <->
      exists value, pool.view.get? key = some (.gauge value) := by
  simp only [get?_view, Holds, Option.map_eq_some_iff]
  constructor
  · rintro ⟨_, hne, number, hheld, rfl⟩
    cases hcontents : pool.contents number with
    | window held => exact absurd (by rw [hcontents]; rfl) hne
    | gauge value => exact ⟨value, number, hheld, hcontents⟩
  · rintro ⟨value, number, hheld, hcontents⟩
    exact ⟨.gauge, by decide, number, hheld, by rw [hcontents]; rfl⟩

/--
Whatever clients call, and in whatever order their calls are taken: the first
instrument of a key is its only one, all share it, and the errors say exactly
when a call came too late or asked for the other kind.
-/
theorem keeps_first (h : empty.AllowsAll calls) : KeepsFirst calls where
  stays := by
    rintro before after rfl key number hheld
    rcases h.of_append with ⟨hbefore, _⟩
    rw [run_append]
    exact ⟨held?_run_of_some hheld after,
      shape_run (sound_empty.run hbefore key number hheld) after⟩
  first _ _ := first_iff
  brought := by
    rintro before call after rfl key offer habsent hoffer
    rw [answer_snd_of_offer? _ hoffer, getOrPut, habsent]
    rw [view_put (sound_empty.run h.of_append.1) habsent, Registry.get?_install, if_pos rfl,
      get?_view, habsent]
    rfl
  handed := by
    rintro before call after rfl key number hkey hhandle
    have hgiven : ((empty.run before).answer call).2.held? key = some number :=
      answer_handle hkey hhandle
    rw [run_append]
    exact held?_run_of_some hgiven after
  shared := by
    rintro before after rfl key number hheld
    rcases h.of_append with ⟨hbefore, _⟩
    rw [run_append, get?_view, held?_run_of_some hheld, Option.map_some,
      contents_run (sound_empty.run hbefore key number hheld)]
  register_refused := by
    rintro before after key offer error -
    rw [register_refused_iff, Registry.contains_iff, get?_view, Ne, Ne, Option.map_eq_none_iff]
  window_refused := by
    rintro before after key capacity error -
    rw [<- holds_gauge_iff]
    exact claim_refused_iff rfl
  gauge_refused := by
    rintro before after key error -
    rw [<- holds_histogram_iff]
    exact claim_refused_iff rfl
  unchanged _ _ _ _ _ := answer_of_refused
  listed key := by
    rw [mem_names_view_iff, Ne, held?_run_eq_none_iff]
    simp [held?, empty]
  ascending := Registry.names_pairwise _
  read := Registry.map_fst_readings _
  counted := (Registry.length_names _).symm
  answered := by
    rintro before call after rfl result
    exact answer?_view (sound_empty.run h.of_append.1)
  changed := by
    rintro before number change after rfl key hheld hsole detached
    exact view_change (sound_empty.run h.of_append.1) change hheld hsole _ rfl

def contest : List Call :=
  [.window "a" 3, .gauge "a", .change 0 (.window (.record 7)), .register "b" (.made 0),
    .gauge "c", .register "a" (.new (.gauge 0)), .window "a" 99,
    .change 0 (.window (.record 8)), .window "c" 2, .get "b"]

theorem keeps_first_contest : empty.AllowsAll contest ∧ KeepsFirst contest := by
  have hallows : empty.AllowsAll contest := by decide
  exact ⟨hallows, keeps_first hallows⟩

end Pool

end Metric

end BrokerProbe
