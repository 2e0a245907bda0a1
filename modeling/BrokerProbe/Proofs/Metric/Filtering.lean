import BrokerProbe.Proofs.Metric.InStep
import BrokerProbe.Proofs.Metric.Registry
/-!
# What flags filter

A publisher that keeps some kinds back does the same as one that publishes all,
but where the other has a window in the registry it may have one of its own.  So
its registry is the other's, less the keys of the kinds that it keeps back.
-/

namespace BrokerProbe

namespace Metric

open Dialogue (InStep)

/-!
# Keys read back
-/

namespace Key

def head? (name : List Char) : Option (Role × Kind) :=
  heads.find? fun head => (head.1.title ++ "." ++ head.2.suffix).toList == name

def ofText? (text : String) : Option Key := do
  let (name, scope) <- decode? text.toList
  let (role, kind) <- head? name
  let key : Key := { role, kind, scope := String.ofList scope }
  if key.encode = text then some key else none

theorem head?_name (key : Key) : head? key.name.toList = some (key.role, key.kind) := by
  have hhead : forall role kind,
      head? (Role.title role ++ "." ++ Kind.suffix kind).toList = some (role, kind) := by
    intro role kind
    cases role <;> cases kind <;> decide
  exact hhead key.role key.kind

theorem ofText?_eq_some_iff {text : String} {key : Key} :
    ofText? text = some key <-> key.encode = text := by
  constructor
  · intro h
    simp only [ofText?, Option.bind_eq_bind, Option.bind_eq_some_iff] at h
    rcases h with ⟨_, _, _, _, hkey⟩
    split at hkey
    · next hencode =>
      cases hkey
      exact hencode
    · cases hkey
  · rintro rfl
    have hdecoded : decode? key.encode.toList = some (key.name.toList, key.scope.toList) := by
      rw [encode, String.toList_ofList, decode?_encodeChars]
    simp [ofText?, hdecoded, head?_name]

end Key

def Flags.publishes (flags : Flags) (text : String) : Bool :=
  (Key.ofText? text).any fun key => flags.enabled key.kind

@[simp] theorem Flags.publishes_encode (flags : Flags) (key : Key) :
    flags.publishes key.encode = flags.enabled key.kind := by
  rw [publishes, Key.ofText?_eq_some_iff.mpr rfl, Option.any_some]

theorem Flags.enabled_all (kind : Kind) : Flags.all.enabled kind = true := by
  cases kind <;> rfl

/-!
# A registry less some keys
-/

def Registry.restrict (registry : Registry) (kept : String -> Bool) : Registry where
  entries := registry.entries.filter fun entry => kept entry.1
  ascending := registry.ascending.sublist (List.filter_sublist.map Prod.fst)

variable {kept : String -> Bool}

theorem Registry.get?_restrict (registry : Registry) (kept : String -> Bool) (key : String) :
    (registry.restrict kept).get? key = if kept key then registry.get? key else none := by
  apply Option.ext
  intro held
  have hmem : (key, held) ∈ (registry.restrict kept).entries <->
      (key, held) ∈ registry.entries ∧ kept key = true :=
    List.mem_filter
  rw [mem_entries_iff, mem_entries_iff] at hmem
  rw [hmem]
  split
  · next hkept => exact and_iff_left hkept
  · next hkept => simp [hkept]

theorem Registry.mem_names_restrict (registry : Registry) (kept : String -> Bool)
    (key : String) :
    key ∈ (registry.restrict kept).names <-> kept key = true ∧ key ∈ registry.names := by
  rw [mem_names_iff_ne_none, mem_names_iff_ne_none, get?_restrict]
  split
  · next hkept => exact (and_iff_right hkept).symm
  · next hkept => simp [hkept]

theorem Registry.restrict_empty (kept : String -> Bool) : empty.restrict kept = empty := rfl

variable {space twin : Space} {question : Question}

theorem Space.restrict_reply (h : space.registry = twin.registry.restrict kept)
    (hkept : forall key, question.key? = some key -> kept key = true) :
    (space.reply question).2.registry = (twin.reply question).2.registry.restrict kept := by
  apply Registry.ext_get?
  intro key
  rw [get?_reply, h, Registry.get?_restrict, Registry.get?_restrict, get?_reply]
  by_cases hkey : question.key? = some key
  · rw [if_pos (hkept key hkey), if_pos (hkept key hkey)]
  · rw [Question.effectAt, if_neg hkey, Question.effectAt, if_neg hkey]

theorem Space.restrict_reply_of_withheld (space : Space)
    (h : forall key, question.key? = some key -> kept key = false) :
    (space.reply question).2.registry.restrict kept = space.registry.restrict kept := by
  apply Registry.ext_get?
  intro key
  rw [Registry.get?_restrict, Registry.get?_restrict, get?_reply, Question.effectAt]
  split
  · next hkept =>
    split
    · next hkey => exact absurd (h key hkey) (by rw [hkept]; decide)
    · rfl
  · rfl

theorem Space.registry_reply_of_key?_eq_none (space : Space) (h : question.key? = none) :
    (space.reply question).2.registry = space.registry := by
  apply Registry.ext_get?
  intro key
  rw [get?_reply, Question.effectAt, h, if_neg (by simp)]

/-!
# Publishers in step
-/

variable {flags : Flags} {publisher : Publisher} {Value Other : Type}

def Space.Filtered (flags : Flags) (space twin : Space) : Prop :=
  space.registry = twin.registry.restrict flags.publishes

def Handle.Twins (flags : Flags) : Handle -> Handle -> Prop
  | .published key, .published other => other = key ∧ flags.publishes key = true
  | .detached _, .published key => flags.publishes key = false
  | .detached _, .detached _ => True
  | .published _, .detached _ => False

/-- The one publisher has less of the registry than the other; what they ask is not seen. -/
def filtering (flags : Flags) : Pairing Space Space Unit where
  reply := Space.reply
  answers := Space.reply
  places := Space.Filtered flags
  handles := Handle.Twins flags
  seen _ := none

abbrev Recording.Follows (flags : Flags) (fit : Value -> Other -> Prop)
    (recording : Recording Value) (other : Recording Other) : Prop :=
  Recording.Pairs (filtering flags) fit recording other

theorem Recording.follows_request (question following : Question)
    {fit : Answer question -> Answer following -> Prop}
    (h : forall space twin : Space, space.Filtered flags twin ->
      fit (space.reply question).1 (twin.reply following).1 ∧
        (space.reply question).2.Filtered flags (twin.reply following).2) :
    Recording.Follows flags fit (Dialogue.request question) (Dialogue.request following) :=
  InStep.request fun space twin hfiltered =>
    ⟨(h space twin hfiltered).1, (h space twin hfiltered).2, rfl⟩

theorem Space.Filtered.reply_window_fst (h : space.Filtered flags twin) {key : String}
    (hkey : flags.publishes key = true) (capacity : Nat) :
    (space.reply (.window key capacity)).1 = (twin.reply (.window key capacity)).1 := by
  rw [Space.reply_window_fst, Space.reply_window_fst, h, Registry.get?_restrict, if_pos hkey]

theorem Space.Filtered.reply_gauge_fst (h : space.Filtered flags twin) {key : String}
    (hkey : flags.publishes key = true) :
    (space.reply (.gauge key)).1 = (twin.reply (.gauge key)).1 := by
  rw [Space.reply_gauge_fst, Space.reply_gauge_fst, h, Registry.get?_restrict, if_pos hkey]

theorem Space.Filtered.reply_aside (h : space.Filtered flags twin) {key : String}
    (hkey : flags.publishes key = false) (hquestion : question.key? = some key) :
    space.Filtered flags (twin.reply question).2 := by
  refine h.trans (restrict_reply_of_withheld twin ?_).symm
  intro other hother
  cases hquestion.symm.trans hother
  exact hkey

theorem Recording.follows_detach (flags : Flags) (capacity : Nat) :
    Recording.Follows flags (Handle.Twins flags) (Recording.detach capacity)
      (Recording.detach capacity) :=
  follows_request (.detach capacity) (.detach capacity) fun _ _ h => ⟨trivial, h⟩

theorem Recording.follows_resize {key : String} (hkey : flags.publishes key = true)
    (capacity : Nat) :
    Recording.Follows flags (fun _ _ => True) (Recording.resize (.published key) capacity)
      (Recording.resize (.published key) capacity) := by
  refine follows_request (.resize _ capacity) (.resize _ capacity) ?_
  refine fun space twin hfiltered => ⟨trivial, Space.restrict_reply hfiltered ?_⟩
  rintro _ ⟨⟩
  exact hkey

theorem Recording.follows_record {handle other : Handle} (h : handle.Twins flags other)
    (value : Nat) :
    Recording.Follows flags (fun _ _ => True) (Recording.record handle value)
      (Recording.record other value) := by
  refine follows_request (.record handle value) (.record other value) ?_
  refine fun space twin hfiltered => ⟨trivial, ?_⟩
  cases handle with
  | published key =>
      cases other with
      | detached number => exact h.elim
      | published other =>
          obtain ⟨rfl, hkey⟩ := h
          refine Space.restrict_reply hfiltered ?_
          rintro _ ⟨⟩
          exact hkey
  | detached number =>
      refine (space.registry_reply_of_key?_eq_none rfl).trans (hfiltered.trans ?_)
      refine (Space.restrict_reply_of_withheld twin ?_).symm
      cases other with
      | detached other => rintro _ ⟨⟩
      | published key =>
          rintro _ ⟨⟩
          exact h

theorem Recording.follows_read {flags : Flags} (handle other : Handle) :
    Recording.Follows flags (fun _ _ => True) (Recording.read handle) (Recording.read other) := by
  refine follows_request (.read handle) (.read other) fun space twin hfiltered => ⟨trivial, ?_⟩
  rw [Space.reply_read_snd, Space.reply_read_snd]
  exact hfiltered

namespace Publisher

theorem follows_window_published {key : Key} (h : flags.enabled key.kind = true) (role : Role)
    (capacity : Nat) :
    Recording.Follows flags (Handle.Twins flags) (window { role, flags } key capacity)
      (window { role, flags := .all } key capacity) := by
  have hkey : flags.publishes key.encode = true := (flags.publishes_encode key).trans h
  rw [window, window, if_pos h, if_pos (Flags.enabled_all key.kind)]
  have hask : Recording.Follows flags
      (fun answer other => other = answer ∧
        forall handle, answer = .ok handle -> handle = .published key.encode)
      (Recording.window key.encode capacity) (Recording.window key.encode capacity) := by
    refine Recording.follows_request (.window _ capacity) (.window _ capacity) ?_
    intro space twin hfiltered
    refine ⟨⟨(hfiltered.reply_window_fst hkey capacity).symm, ?_⟩, ?_⟩
    · exact fun handle hgiven => (Space.window?_of_granted hgiven).1
    refine Space.restrict_reply hfiltered fun text htext => ?_
    rw [<- Option.some.inj htext]
    exact hkey
  refine hask.bind ?_
  rintro (error | handle) _ ⟨rfl, hhandle⟩
  · exact Recording.follows_detach flags capacity
  · obtain rfl := hhandle handle rfl
    exact (Recording.follows_resize hkey capacity).bind fun _ _ _ => InStep.done ⟨rfl, hkey⟩

/-- Where one publisher claims a window of its own, the other's key is not published. -/
theorem follows_window_withheld {key : Key} (h : flags.enabled key.kind = false) (role : Role)
    (capacity : Nat) :
    Recording.Follows flags (Handle.Twins flags) (window { role, flags } key capacity)
      (window { role, flags := .all } key capacity) := by
  have hkey : flags.publishes key.encode = false := (flags.publishes_encode key).trans h
  rw [window, window, if_neg (by simp [h]), if_pos (Flags.enabled_all key.kind)]
  refine InStep.ask_right
    (fun answer => forall handle, answer = .ok handle -> handle = .published key.encode)
    (fun space twin hfiltered => ⟨?_, hfiltered.reply_aside hkey rfl⟩) (fun _ => rfl) ?_
  · exact fun handle hgiven => (Space.window?_of_granted hgiven).1
  · rintro (error | handle) hhandle
    · exact Recording.follows_detach flags capacity
    · obtain rfl := hhandle handle rfl
      refine InStep.ask_right (fun _ => True)
        (fun space twin hfiltered => ⟨trivial, hfiltered.reply_aside hkey rfl⟩) (fun _ => rfl)
        fun _ _ => ?_
      refine InStep.ask_left (fun handle => handle.Twins flags (.published key.encode))
        (fun space twin hfiltered => ⟨hkey, hfiltered⟩) (fun _ => rfl) fun handle hhandle => ?_
      exact InStep.done hhandle

theorem follows_window (flags : Flags) (role : Role) (key : Key) (capacity : Nat) :
    Recording.Follows flags (Handle.Twins flags) (window { role, flags } key capacity)
      (window { role, flags := .all } key capacity) := by
  cases h : flags.enabled key.kind with
  | true => exact follows_window_published h role capacity
  | false => exact follows_window_withheld h role capacity

theorem follows_showAvailability (flags : Flags) (role : Role) (ratio : Option Float) :
    Recording.Follows flags (fun _ _ => True) (showAvailability { role, flags } ratio)
      (showAvailability { role, flags := .all } ratio) := by
  have hkey := flags.publishes_encode (.availability role)
  generalize hown : (Key.availability role).encode = key at hkey
  simp only [showAvailability, hown]
  rw [if_pos (show Flags.all.availability = true from rfl)]
  cases ratio with
  | none =>
      split <;> exact InStep.done trivial
  | some ratio =>
      split
      · next henabled =>
        have hpublished : flags.publishes key = true := hkey.trans henabled
        have hask : Recording.Follows flags (fun answer other => other = answer)
            (Recording.gauge key) (Recording.gauge key) := by
          refine Recording.follows_request (.gauge key) (.gauge key) fun space twin hfiltered => ?_
          refine ⟨(hfiltered.reply_gauge_fst hpublished).symm, ?_⟩
          refine Space.restrict_reply hfiltered ?_
          rintro _ ⟨⟩
          exact hpublished
        refine hask.bind ?_
        rintro (error | shown) _ rfl
        · exact InStep.done trivial
        · have hset : Recording.Follows flags (fun _ _ => True) (Recording.set key ratio)
              (Recording.set key ratio) := by
            refine Recording.follows_request (.set key ratio) (.set key ratio)
              fun space twin hfiltered => ⟨trivial, Space.restrict_reply hfiltered ?_⟩
            rintro _ ⟨⟩
            exact hpublished
          exact hset.bind fun _ _ _ => InStep.done trivial
      · next hwithheld =>
        have hkept : flags.publishes key = false := hkey.trans (Bool.eq_false_iff.mpr hwithheld)
        refine InStep.ask_right (fun _ => True)
          (fun space twin hfiltered => ⟨trivial, hfiltered.reply_aside hkept rfl⟩) (fun _ => rfl) ?_
        rintro (error | shown) -
        · exact InStep.done trivial
        · exact InStep.ask_right (fun _ => True)
            (fun space twin hfiltered => ⟨trivial, hfiltered.reply_aside hkept rfl⟩)
            (fun _ => rfl) fun _ _ => InStep.done trivial

end Publisher

theorem joins_filtering (flags : Flags) : (filtering flags).Joins flags .all where
  window := Publisher.follows_window flags
  showAvailability := Publisher.follows_showAvailability flags
  record := Recording.follows_record
  read := Recording.follows_read

end Metric

end BrokerProbe
