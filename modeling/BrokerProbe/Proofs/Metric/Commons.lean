import BrokerProbe.Proofs.Metric.Clients
import BrokerProbe.Proofs.Metric.Growth
/-!
# Instruments in common

A registry hands out the instruments themselves, and its clients may put one of
them under several keys.  What is asked through one of these keys then shows
under all of them.  Which keys have an instrument in common is settled when they
get it: nothing that is asked later brings keys together or takes them apart.
-/

namespace BrokerProbe

namespace Metric

namespace Pool

variable {pool : Pool} {key text : String} {number : Nat} {call : Call}

def changes (pool : Pool) (key : String) (change : Change) : List Call :=
  (pool.held? key).toList.map fun number => .change number change

def calls (pool : Pool) : Question -> List Call
  | .window key capacity => [.window key capacity]
  | .gauge key => [.gauge key]
  | .resize (.published key) capacity => pool.changes key (.window (.resize capacity))
  | .record (.published key) value => pool.changes key (.window (.record value))
  | .set key value => pool.changes key (.set value)
  | _ => []

theorem run_changes_of_some (h : pool.held? key = some number) (change : Change) :
    pool.run (pool.changes key change) = pool.change number change := by
  rw [changes, h]
  rfl

theorem run_changes_of_none (h : pool.held? key = none) (change : Change) :
    pool.run (pool.changes key change) = pool := by
  rw [changes, h]
  rfl

end Pool

/-!
# What questions come to
-/

/-- A question offers something to a key, or changes what a key has, or is about no key. -/
inductive Question.Bears (question : Question) : Prop where
  | offers {key : String} {call : Call} {instrument : Instrument}
      (hkey : question.key? = some key) (hclaims : question.claims? = some key)
      (hcalls : forall pool : Pool, pool.calls question = [call])
      (hoffer : call.offer? = some (key, .new instrument))
      (heffect : forall held, question.effect held = some (held.getD instrument))
  | changes {key : String} {change : Change}
      (hkey : question.key? = some key) (hclaims : question.claims? = none)
      (hcalls : forall pool : Pool, pool.calls question = pool.changes key change)
      (heffect : forall held, question.effect held = held.map change.apply)
  | aside (hkey : question.key? = none) (hclaims : question.claims? = none)
      (hcalls : forall pool : Pool, pool.calls question = [])

theorem Question.bears (question : Question) : question.Bears := by
  have hchanges : forall {question : Question} {key : String} (change : Change),
      question.key? = some key -> question.claims? = none ->
      (forall pool : Pool, pool.calls question = pool.changes key change) ->
      (forall held, question.effect (some held) = some (change.apply held)) ->
      question.effect none = none -> question.Bears := by
    intro question key change hkey hclaims hcalls hsome hnone
    refine .changes hkey hclaims hcalls ?_
    rintro (_ | held)
    · exact hnone
    · exact hsome held
  cases question with
  | window key capacity =>
      refine .offers rfl rfl (fun _ => rfl) rfl ?_
      rintro (_ | _) <;> rfl
  | gauge key =>
      refine .offers rfl rfl (fun _ => rfl) rfl ?_
      rintro (_ | _) <;> rfl
  | detach capacity => exact .aside rfl rfl fun _ => rfl
  | read handle => exact .aside rfl rfl fun _ => rfl
  | resize handle capacity =>
      cases handle with
      | detached number => exact .aside rfl rfl fun _ => rfl
      | published key =>
          refine hchanges (.window (.resize capacity)) rfl rfl (fun _ => rfl) ?_ rfl
          rintro (_ | _) <;> rfl
  | record handle value =>
      cases handle with
      | detached number => exact .aside rfl rfl fun _ => rfl
      | published key =>
          refine hchanges (.window (.record value)) rfl rfl (fun _ => rfl) ?_ rfl
          rintro (_ | _) <;> rfl
  | set key value =>
      refine hchanges (.set value) rfl rfl (fun _ => rfl) ?_ rfl
      rintro (_ | _) <;> rfl

namespace Pool

variable {pool : Pool} {key text : String} {number : Nat} {call : Call} {question : Question}
variable {instrument : Instrument}

theorem Has.run (h : pool.Has number) (calls : List Call) : (pool.run calls).Has number := by
  induction calls generalizing pool with
  | nil => exact h
  | cons call rest ih => exact ih (h.answer call)

theorem uses?_of_offer_new (h : call.offer? = some (key, .new instrument)) :
    call.uses? = none := by
  cases call <;> cases h <;> rfl

theorem changeOf?_of_offer (h : call.offer? ≠ none) (number : Nat) :
    call.changeOf? number = none := by
  cases call with
  | change own applied => exact absurd rfl h
  | _ => rfl

theorem allowsAll_calls (h : pool.Sound) (question : Question) :
    pool.AllowsAll (pool.calls question) := by
  cases question.bears with
  | offers _ _ hcalls hoffer _ =>
      rw [hcalls]
      refine ⟨fun number hnumber => ?_, trivial⟩
      rw [uses?_of_offer_new hoffer] at hnumber
      cases hnumber
  | @changes key _ _ _ hcalls _ =>
      rw [hcalls, changes]
      cases hheld : pool.held? key with
      | none => trivial
      | some number =>
          refine ⟨?_, trivial⟩
          rintro _ ⟨⟩
          exact h key number hheld
  | aside _ _ hcalls =>
      rw [hcalls]
      trivial

theorem held?_answer_new (hoffer : call.offer? = some (key, .new instrument))
    (h : (pool.answer call).2.held? text = some number) :
    pool.held? text = some number ∨ key = text ∧ number = pool.made.length := by
  rw [held?_answer, Option.or_eq_some_iff] at h
  rcases h with hbefore | ⟨_, hbrings⟩
  · exact .inl hbefore
  · rcases brings?_eq_some hbrings with ⟨offer, hoffered, hnumber⟩
    cases hoffer.symm.trans hoffered
    exact .inr ⟨rfl, hnumber.symm⟩

theorem held?_calls (h : (pool.run (pool.calls question)).held? text = some number) :
    pool.held? text = some number ∨ question.claims? = some text ∧ number = pool.made.length := by
  cases question.bears with
  | @offers key call instrument _ hclaims hcalls hoffer _ =>
      rw [hcalls] at h
      refine (held?_answer_new hoffer h).imp_right ?_
      rintro ⟨rfl, hnumber⟩
      exact ⟨hclaims, hnumber⟩
  | @changes key change _ _ hcalls _ =>
      rw [hcalls] at h
      cases hheld : pool.held? key with
      | none =>
          rw [run_changes_of_none hheld] at h
          exact .inl h
      | some own =>
          rw [run_changes_of_some hheld] at h
          exact .inl h
  | aside _ _ hcalls =>
      rw [hcalls] at h
      exact .inl h

theorem held?_calls_ne_none_iff :
    (pool.run (pool.calls question)).held? text ≠ none <->
      pool.held? text ≠ none ∨ question.claims? = some text := by
  constructor
  · intro h
    rcases Option.ne_none_iff_exists'.mp h with ⟨number, hnumber⟩
    rcases held?_calls hnumber with hbefore | ⟨hclaims, _⟩
    · exact .inl (by rw [hbefore]; exact Option.some_ne_none number)
    · exact .inr hclaims
  · rintro (hbefore | hclaims)
    · rcases Option.ne_none_iff_exists'.mp hbefore with ⟨number, hnumber⟩
      rw [held?_run_of_some hnumber]
      exact Option.some_ne_none number
    · cases question.bears with
      | @offers key _ _ _ hown hcalls hoffer _ =>
          cases hown.symm.trans hclaims
          rw [hcalls]
          intro hnone
          exact (held?_run_eq_none_iff.mp hnone).2 _ List.mem_cons_self _ hoffer
      | changes _ hnone _ _ => cases hnone.symm.trans hclaims
      | aside _ hnone _ => cases hnone.symm.trans hclaims

theorem get?_view_answer (hsound : pool.Sound) (hoffer : call.offer? = some (key, .new instrument))
    (text : String) :
    (pool.answer call).2.view.get? text =
      if text = key then some ((pool.view.get? key).getD instrument)
      else pool.view.get? text := by
  have hview := congrArg Prod.snd (getOrInstall_view hsound key (.new instrument))
  rw [pool.answer_snd_of_offer? hoffer, <- Registry.get?_getOrInstall]
  exact congrArg (fun registry => Registry.get? registry text) hview.symm

end Pool

/-!
# Registries whose instruments may be shared
-/

structure Commons where
  pool : Pool
  sound : pool.Sound

namespace Commons

variable {commons : Commons} {question : Question} {key text other : String} {number : Nat}

def empty : Commons :=
  { pool := .empty, sound := Pool.sound_empty }

def view (commons : Commons) : Registry :=
  commons.pool.view

def follow (commons : Commons) (question : Question) : Commons where
  pool := commons.pool.run (commons.pool.calls question)
  sound := commons.sound.run (Pool.allowsAll_calls commons.sound question)

def ofCalls (calls : List Call) (h : Pool.empty.AllowsAll calls) : Commons where
  pool := Pool.empty.run calls
  sound := Pool.sound_empty.run h

/-- Whether keys are the same, or have an instrument in common. -/
def Joint (commons : Commons) (key other : String) : Prop :=
  key = other ∨ exists number,
    commons.pool.held? key = some number ∧ commons.pool.held? other = some number

theorem view_follow (commons : Commons) (question : Question) :
    (commons.follow question).view = (commons.pool.run (commons.pool.calls question)).view :=
  rfl

theorem joint_refl (commons : Commons) (key : String) : commons.Joint key key :=
  .inl rfl

theorem Joint.symm (h : commons.Joint key other) : commons.Joint other key := by
  rcases h with rfl | ⟨number, hkey, hother⟩
  · exact .inl rfl
  · exact .inr ⟨number, hother, hkey⟩

theorem Joint.held?_eq (h : commons.Joint key other) :
    commons.pool.held? key = commons.pool.held? other := by
  rcases h with rfl | ⟨number, hkey, hother⟩
  · rfl
  · exact hkey.trans hother.symm

theorem joint_of_held (hkey : commons.pool.held? key = some number)
    (hother : commons.pool.held? other = some number) : commons.Joint key other :=
  .inr ⟨number, hkey, hother⟩

theorem Joint.trans (hfirst : commons.Joint key text) (hsecond : commons.Joint text other) :
    commons.Joint key other := by
  rcases hfirst with rfl | ⟨number, hkey, htext⟩
  · exact hsecond
  · exact .inr ⟨number, hkey, hsecond.held?_eq.symm.trans htext⟩

/-- Questions neither bring keys together nor take them apart. -/
@[simp] theorem joint_follow (commons : Commons) (question : Question) :
    (commons.follow question).Joint = commons.Joint := by
  -- No key has the number that is next, so an instrument made now has one key.
  have hnew : forall text, commons.pool.held? text ≠ some commons.pool.made.length :=
    fun text hheld => Nat.lt_irrefl _ (commons.sound text _ hheld)
  funext key other
  apply propext
  constructor
  · rintro (rfl | ⟨number, hkey, hother⟩)
    · exact .inl rfl
    · rcases Pool.held?_calls hkey with hkey | ⟨hclaims, rfl⟩
      · rcases Pool.held?_calls hother with hother | ⟨_, rfl⟩
        · exact .inr ⟨number, hkey, hother⟩
        · exact absurd hkey (hnew key)
      · rcases Pool.held?_calls hother with hother | ⟨hagain, _⟩
        · exact absurd hother (hnew other)
        · exact .inl (Option.some.inj (hclaims.symm.trans hagain))
  · rintro (rfl | ⟨number, hkey, hother⟩)
    · exact .inl rfl
    · exact .inr ⟨number, Pool.held?_run_of_some hkey _, Pool.held?_run_of_some hother _⟩

/-- A question shows under all keys that have the instrument of its key. -/
theorem get?_follow_of_joint (hkey : question.key? = some key) (h : commons.Joint key text) :
    (commons.follow question).view.get? text = question.effect (commons.view.get? text) := by
  cases question.bears with
  | @offers own call instrument hown _ hcalls hoffer heffect =>
      cases hown.symm.trans hkey
      have hview := Pool.get?_view_answer commons.sound hoffer text
      rw [view_follow, hcalls, heffect]
      refine Eq.trans hview ?_
      split
      · next heq => rw [heq]; rfl
      · next hne =>
        -- A key that shares its instrument has one, and then nothing is installed.
        rcases h with heq | ⟨number, _, htext⟩
        · exact absurd heq.symm hne
        · rw [view, Pool.get?_view, htext]
          rfl
  | @changes own change hown _ hcalls heffect =>
      cases hown.symm.trans hkey
      rw [view_follow, hcalls, heffect, view]
      cases hheld : commons.pool.held? key with
      | none =>
          have htext := h.held?_eq.symm.trans hheld
          rw [Pool.run_changes_of_none hheld, Pool.get?_view, htext]
          rfl
      | some number =>
          have htext := h.held?_eq.symm.trans hheld
          rw [Pool.run_changes_of_some hheld, Pool.get?_view_change commons.sound, if_pos htext]
  | aside hnone _ _ => cases hnone.symm.trans hkey

theorem get?_follow_of_not_joint
    (h : forall key, question.key? = some key -> ¬ commons.Joint key text) :
    (commons.follow question).view.get? text = commons.view.get? text := by
  cases question.bears with
  | @offers own call instrument hown _ hcalls hoffer _ =>
      have hview := Pool.get?_view_answer commons.sound hoffer text
      rw [view_follow, hcalls]
      refine Eq.trans hview (if_neg ?_)
      rintro rfl
      exact h text hown (commons.joint_refl text)
  | @changes own change hown _ hcalls _ =>
      rw [view_follow, hcalls, view]
      cases hheld : commons.pool.held? own with
      | none => rw [Pool.run_changes_of_none hheld]
      | some number =>
          have htext : commons.pool.held? text ≠ some number :=
            fun htext => h own hown (joint_of_held hheld htext)
          rw [Pool.run_changes_of_some hheld, Pool.get?_view_change commons.sound,
            if_neg htext, Option.map_id, id]
  | aside _ _ hcalls =>
      rw [view_follow, hcalls]
      rfl

/-!
# What becomes of an instrument
-/

theorem contents_follow_of_held (hkey : question.key? = some key)
    (h : commons.pool.held? key = some number) :
    some ((commons.follow question).pool.contents number) =
      question.effect (some (commons.pool.contents number)) := by
  have hafter := get?_follow_of_joint hkey (commons.joint_refl key)
  have hheld : (commons.follow question).pool.held? key = some number :=
    Pool.held?_run_of_some h _
  rw [view, view, Pool.get?_view, Pool.get?_view, hheld, h] at hafter
  exact hafter

theorem contents_follow_of_not_held (hhas : commons.pool.Has number)
    (h : forall key, question.key? = some key -> commons.pool.held? key ≠ some number) :
    (commons.follow question).pool.contents number = commons.pool.contents number := by
  rw [follow]
  cases question.bears with
  | @offers key call instrument _ _ hcalls hoffer _ =>
      have hanswer := Pool.contents_answer commons.pool call hhas
      rw [Pool.changeOf?_of_offer (by rw [hoffer]; exact Option.some_ne_none _)] at hanswer
      simp only [hcalls]
      exact hanswer
  | @changes key change hkey _ hcalls _ =>
      simp only [hcalls]
      cases hheld : commons.pool.held? key with
      | none => rw [Pool.run_changes_of_none hheld]
      | some own =>
          have hanswer := Pool.contents_answer commons.pool (.change own change) hhas
          have hne : own ≠ number := fun heq => h key hkey (heq ▸ hheld)
          rw [Call.changeOf?, if_neg hne] at hanswer
          rw [Pool.run_changes_of_some hheld]
          exact hanswer
  | aside _ _ hcalls =>
      simp only [hcalls]
      rfl

/-!
# Questions in a row
-/

variable {questions : List Question}

def followAll (commons : Commons) (questions : List Question) : Commons :=
  questions.foldl follow commons

theorem followAll_append (commons : Commons) (first second : List Question) :
    commons.followAll (first ++ second) = (commons.followAll first).followAll second :=
  List.foldl_append

@[simp] theorem joint_followAll (commons : Commons) (questions : List Question) :
    (commons.followAll questions).Joint = commons.Joint := by
  induction questions generalizing commons with
  | nil => rfl
  | cons question rest ih => exact (ih _).trans (commons.joint_follow question)

theorem get?_followAll_of_not_joint
    (h : forall question, question ∈ questions -> forall key, question.key? = some key ->
      ¬ commons.Joint key text) :
    (commons.followAll questions).view.get? text = commons.view.get? text := by
  induction questions generalizing commons with
  | nil => rfl
  | cons question rest ih =>
      rw [List.forall_mem_cons] at h
      refine (ih fun other hother key hkey => ?_).trans (get?_follow_of_not_joint h.1)
      rw [joint_follow]
      exact h.2 other hother key hkey

theorem has_follow (h : commons.pool.Has number) (question : Question) :
    (commons.follow question).pool.Has number :=
  Pool.Has.run h (commons.pool.calls question)

theorem held?_followAll_iff (h : commons.pool.Has number) :
    (commons.followAll questions).pool.held? key = some number <->
      commons.pool.held? key = some number := by
  induction questions generalizing commons with
  | nil => exact Iff.rfl
  | cons question rest ih =>
      refine (ih (has_follow h question)).trans ⟨fun hafter => ?_, fun hbefore => ?_⟩
      · rcases Pool.held?_calls hafter with hbefore | ⟨_, hnew⟩
        · exact hbefore
        · exact absurd hnew (Nat.ne_of_lt h)
      · exact Pool.held?_run_of_some hbefore _

theorem shape_followAll (h : commons.pool.Has number) :
    ((commons.followAll questions).pool.contents number).shape =
      (commons.pool.contents number).shape := by
  induction questions generalizing commons with
  | nil => rfl
  | cons question rest ih =>
      exact (ih (has_follow h question)).trans (Pool.shape_run h (commons.pool.calls question))

theorem mem_names_followAll :
    text ∈ (commons.followAll questions).view.names <->
      text ∈ commons.view.names ∨ text ∈ Question.claimed questions := by
  induction questions generalizing commons with
  | nil => simp [followAll, Question.claimed]
  | cons question rest ih =>
      have hstep : text ∈ (commons.follow question).view.names <->
          text ∈ commons.view.names ∨ question.claims? = some text := by
        rw [view, view, Pool.mem_names_view_iff, Pool.mem_names_view_iff]
        exact Pool.held?_calls_ne_none_iff
      have hclaimed : text ∈ Question.claimed (question :: rest) <->
          question.claims? = some text ∨ text ∈ Question.claimed rest := by
        simp [Question.claimed, List.mem_filterMap]
      exact ih.trans (by rw [hstep, hclaimed, or_assoc])

/-!
# Registries whose instruments are not shared
-/

/-- Whether the instrument of a key, if it has one, is under no other key. -/
def Alone (commons : Commons) (key : String) : Prop :=
  forall other, commons.Joint other key -> other = key

/-- Whether no instrument is under more than one key. -/
def Sole (commons : Commons) : Prop :=
  forall key, commons.Alone key

theorem sole_empty : empty.Sole := by
  rintro key other (heq | ⟨number, hother, _⟩)
  · exact heq
  · cases hother

theorem Sole.of_joint_eq (h : commons.Sole) {after : Commons}
    (hjoint : after.Joint = commons.Joint) : after.Sole := by
  intro key other hown
  rw [hjoint] at hown
  exact h key other hown

theorem Sole.follow (h : commons.Sole) (question : Question) :
    (commons.follow question).Sole :=
  h.of_joint_eq (commons.joint_follow question)

theorem Sole.followAll (h : commons.Sole) (questions : List Question) :
    (commons.followAll questions).Sole :=
  h.of_joint_eq (commons.joint_followAll questions)

/-- Where nothing is shared, a question does to the instruments what it does to the registry. -/
theorem Sole.view_follow (h : commons.Sole) {space : Space}
    (hspace : space.registry = commons.view) (question : Question) :
    (commons.follow question).view = (space.reply question).2.registry := by
  apply Registry.ext_get?
  intro text
  rw [Space.get?_reply, Question.effectAt, hspace]
  split
  · next hkey => exact get?_follow_of_joint hkey (commons.joint_refl text)
  · next hkey =>
    refine get?_follow_of_not_joint fun key hown hjoint => hkey ?_
    rw [hown, h text key hjoint]

def register (commons : Commons) (key : String) (instrument : Instrument) : Commons where
  pool := (commons.pool.answer (.register key (.new instrument))).2
  sound := commons.sound.answer nofun

theorem view_register (commons : Commons) (key : String) (instrument : Instrument) :
    (commons.register key instrument).view = commons.view.install key instrument := by
  apply Registry.ext_get?
  intro text
  have hoffer : (Call.register key (.new instrument)).offer? = some (key, .new instrument) := rfl
  have hview := Pool.get?_view_answer commons.sound hoffer text
  exact hview.trans (Registry.get?_install commons.view key instrument text).symm

theorem Sole.register (h : commons.Sole) (key : String) (instrument : Instrument) :
    (commons.register key instrument).Sole := by
  have hnew : forall text, commons.pool.held? text ≠ some commons.pool.made.length :=
    fun text hheld => Nat.lt_irrefl _ (commons.sound text _ hheld)
  rintro text other (heq | ⟨number, hother, htext⟩)
  · exact heq
  · rcases Pool.held?_answer_new rfl hother with hother | ⟨hkey, rfl⟩
    · rcases Pool.held?_answer_new rfl htext with htext | ⟨_, rfl⟩
      · exact h text other (joint_of_held hother htext)
      · exact absurd hother (hnew other)
    · rcases Pool.held?_answer_new rfl htext with htext | ⟨hagain, _⟩
      · exact absurd htext (hnew text)
      · exact hkey.symm.trans hagain

def ofRegistry (registry : Registry) : Commons :=
  registry.entries.foldl (fun commons entry => commons.register entry.1 entry.2) empty

theorem sole_ofRegistry (registry : Registry) : (ofRegistry registry).Sole := by
  have hfold : forall (entries : List (String × Instrument)) (commons : Commons), commons.Sole ->
      (entries.foldl (fun commons entry => commons.register entry.1 entry.2) commons).Sole := by
    intro entries
    induction entries with
    | nil => exact fun _ h => h
    | cons entry rest ih => exact fun _ h => ih _ (h.register entry.1 entry.2)
  exact hfold registry.entries empty sole_empty

theorem view_ofRegistry (registry : Registry) : (ofRegistry registry).view = registry := by
  have hfold : forall (entries : List (String × Instrument)) (commons : Commons),
      (entries.foldl (fun commons entry => commons.register entry.1 entry.2) commons).view =
        entries.foldl (fun registry entry => registry.install entry.1 entry.2) commons.view := by
    intro entries
    induction entries with
    | nil => exact fun _ => rfl
    | cons entry rest ih =>
        intro commons
        refine (ih _).trans ?_
        rw [view_register]
        rfl
  refine (hfold registry.entries empty).trans (Registry.ext_get? fun key => ?_)
  have hget := Registry.get?_foldl_install id registry.entries .empty key
  rw [Registry.get?_empty, Option.none_or, Option.map_id] at hget
  exact hget

end Commons

end Metric

end BrokerProbe
