import BrokerProbe.Metric.Publisher
import BrokerProbe.Proofs.Dialogue.Conversation
import BrokerProbe.Proofs.Metric.Key
/-!
# Questions at the registry

A question changes the instrument of one key at most, in a way that depends on
that instrument alone.  As long as availabilities are shown in gauges and all
else is kept in windows, whoever asks for a window by its key is given it.
-/

namespace BrokerProbe

namespace Metric

/-!
# One key at a time
-/

namespace Question

def key? : Question -> Option String
  | .window key _ => some key
  | .gauge key => some key
  | .resize (.published key) _ => some key
  | .record (.published key) _ => some key
  | .set key _ => some key
  | _ => none

def effect : Question -> Option Instrument -> Option Instrument
  | .window _ capacity, none => some (.window (.empty capacity))
  | .gauge _, none => some (.gauge 0)
  | .resize _ capacity, some (.window held) => some (.window (held.resize capacity))
  | .record _ value, some (.window held) => some (.window (held.record value))
  | .set _ value, some (.gauge _) => some (.gauge value)
  | _, held => held

def effectAt (key : String) (question : Question) (held : Option Instrument) :
    Option Instrument :=
  if question.key? = some key then question.effect held else held

theorem effectAt_of_key? {question : Question} {own : String}
    (h : question.key? = some own) (held : String -> Option Instrument) (key : String) :
    question.effectAt key (held key) =
      if key = own then question.effect (held own) else held key := by
  by_cases heq : key = own
  · simp [effectAt, h, heq]
  · simp [effectAt, h, heq, Ne.symm heq]

theorem foldl_effectAt (key : String) (questions : List Question) (held : Option Instrument) :
    questions.foldl (fun held question => question.effectAt key held) held =
      (questions.filter fun question => question.key? = some key).foldl
        (fun held question => question.effect held) held := by
  induction questions generalizing held with
  | nil => rfl
  | cons question rest ih =>
      rw [List.foldl_cons, ih]
      by_cases h : question.key? = some key
      · simp [effectAt, h]
      · simp [effectAt, h]

end Question

theorem Registry.get?_getOrInstall (registry : Registry) (key : String)
    (instrument : Instrument) (other : String) :
    (registry.getOrInstall key instrument).2.get? other =
      if other = key then some ((registry.get? key).getD instrument)
      else registry.get? other := by
  unfold getOrInstall
  split
  · next held hheld =>
    split
    · next heq => rw [heq, hheld, Option.getD_some]
    · rfl
  · exact registry.get?_install key instrument other

theorem Registry.window_snd (registry : Registry) (key : String) (capacity : Nat) :
    (registry.window key capacity).2 =
      (registry.getOrInstall key (.window (.empty capacity))).2 := by
  unfold window
  split
  · next h => rw [h]
  · next h => rw [h]

theorem Registry.gauge_snd (registry : Registry) (key : String) :
    (registry.gauge key).2 = (registry.getOrInstall key (.gauge 0)).2 := by
  unfold gauge
  split
  · next h => rw [h]
  · next h => rw [h]

theorem Space.get?_reply (question : Question) (space : Space) (key : String) :
    (space.reply question).2.registry.get? key =
      question.effectAt key (space.registry.get? key) := by
  cases question with
  | window own capacity =>
      rw [Question.effectAt_of_key? rfl space.registry.get?, reply, Registry.window_snd,
        Registry.get?_getOrInstall]
      cases space.registry.get? own <;> rfl
  | gauge own =>
      rw [Question.effectAt_of_key? rfl space.registry.get?, reply, Registry.gauge_snd,
        Registry.get?_getOrInstall]
      cases space.registry.get? own <;> rfl
  | detach capacity => rfl
  | resize handle capacity =>
      cases handle with
      | detached number => rfl
      | published own =>
          rw [Question.effectAt_of_key? rfl space.registry.get?, reply, changeWindow,
            Registry.get?_change]
          rcases space.registry.get? own with _ | _ | _ <;> rfl
  | record handle value =>
      cases handle with
      | detached number => rfl
      | published own =>
          rw [Question.effectAt_of_key? rfl space.registry.get?, reply, changeWindow,
            Registry.get?_change]
          rcases space.registry.get? own with _ | _ | _ <;> rfl
  | read handle =>
      rw [reply]
      split
      · rfl
      · rfl
  | set own value =>
      rw [Question.effectAt_of_key? rfl space.registry.get?, reply, setGauge,
        Registry.get?_change]
      rcases space.registry.get? own with _ | _ | _ <;> rfl

theorem Space.get?_reply_own {question : Question} {key : String}
    (h : question.key? = some key) (space : Space) :
    (space.reply question).2.registry.get? key = question.effect (space.registry.get? key) := by
  rw [get?_reply, Question.effectAt, if_pos h]

theorem Space.reply_read_snd (space : Space) (handle : Handle) :
    (space.reply (.read handle)).2 = space := by
  rw [reply]
  split <;> rfl

theorem Space.reply_read_fst {space : Space} {handle : Handle} {held : Window}
    (h : space.window? handle = some held) :
    (space.reply (.read handle)).1 = Statistics.ofSamples held.values := by
  simp only [reply, h]

theorem Space.reply_window_fst (space : Space) (key : String) (capacity : Nat) :
    (space.reply (.window key capacity)).1 =
      match space.registry.get? key with
      | some (.gauge _) => .error (.mismatch key .histogram)
      | _ => .ok (.published key) := by
  rcases hheld : space.registry.get? key with _ | _ | _ <;>
    simp [reply, Registry.window, Registry.getOrInstall, hheld, Except.map]

theorem Space.reply_gauge_fst (space : Space) (key : String) :
    (space.reply (.gauge key)).1 =
      match space.registry.get? key with
      | some (.window _) => .error (.mismatch key .gauge)
      | _ => .ok () := by
  rcases hheld : space.registry.get? key with _ | _ | _ <;>
    simp [reply, Registry.gauge, Registry.getOrInstall, hheld, Except.map]

/-!
# One window at a time
-/

def Instrument.window? : Instrument -> Option Window
  | .window held => some held
  | .gauge _ => none

theorem Space.window?_published (space : Space) (key : String) :
    space.window? (.published key) = (space.registry.get? key).bind Instrument.window? := by
  rw [window?]
  rcases space.registry.get? key with _ | _ | _ <;> rfl

def Question.change (handle : Handle) : Question -> Window -> Window
  | .resize other capacity, held => if other = handle then held.resize capacity else held
  | .record other value, held => if other = handle then held.record value else held
  | _, held => held

theorem Question.effectAt_window (question : Question) (key : String) (held : Window) :
    question.effectAt key (some (.window held)) =
      some (.window (question.change (.published key) held)) := by
  cases question with
  | resize handle capacity =>
      cases handle with
      | detached number => rfl
      | published own => by_cases h : own = key <;> simp [effectAt, key?, effect, change, h]
  | record handle value =>
      cases handle with
      | detached number => rfl
      | published own => by_cases h : own = key <;> simp [effectAt, key?, effect, change, h]
  | _ => simp [effectAt, effect, change]

theorem Space.window?_changeWindow_detached {space : Space} {number : Nat} {held : Window}
    (h : space.window? (.detached number) = some held) (other : Handle)
    (change : Window -> Window) :
    (space.changeWindow other change).window? (.detached number) =
      some (if other = .detached number then change held else held) := by
  rw [window?] at h
  cases other with
  | published key => simpa [changeWindow, window?] using h
  | detached own =>
      rw [changeWindow, window?, Array.getElem?_modify, h]
      by_cases heq : own = number <;> simp [heq]

theorem Space.window?_reply {space : Space} {handle : Handle} {held : Window}
    (h : space.window? handle = some held) (question : Question) :
    (space.reply question).2.window? handle = some (question.change handle held) := by
  cases handle with
  | published key =>
      rw [window?_published, Option.bind_eq_some_iff] at h
      rcases h with ⟨_ | _, hheld, hwindow⟩
      · cases hwindow
        rw [window?_published, get?_reply, hheld, Question.effectAt_window]
        rfl
      · cases hwindow
  | detached number =>
      have hlt : number < space.detached.size := (Array.getElem?_eq_some_iff.mp h).1
      cases question with
      | detach capacity =>
          have hpushed := Array.getElem?_push_lt (x := .empty capacity) hlt
          exact hpushed.trans ((Array.getElem?_eq_getElem hlt).symm.trans h)
      | resize other capacity => exact window?_changeWindow_detached h other _
      | record other value => exact window?_changeWindow_detached h other _
      | read other =>
          rw [reply]
          split
          · exact h
          · exact h
      | _ => exact h

theorem Space.window?_of_granted {space : Space} {key : String} {capacity : Nat}
    {handle : Handle} (h : (space.reply (.window key capacity)).1 = .ok handle) :
    handle = .published key ∧
      exists held, (space.reply (.window key capacity)).2.window? handle = some held := by
  rw [reply_window_fst] at h
  split at h
  · cases h
  · next hheld =>
    cases h
    refine ⟨rfl, ?_⟩
    rw [window?_published, get?_reply, Question.effectAt, Question.key?, if_pos rfl]
    rcases hpresent : space.registry.get? key with _ | held | value
    · exact ⟨.empty capacity, rfl⟩
    · exact ⟨held, rfl⟩
    · exact absurd hpresent (hheld value)

theorem Space.window?_detach (space : Space) (capacity : Nat) :
    (space.reply (.detach capacity)).2.window? (space.reply (.detach capacity)).1 =
      some (.empty capacity) := by
  simp [reply, detach, window?]

def Question.Shows : Question -> Prop
  | .gauge _ => True
  | .set _ _ => True
  | _ => False

theorem Space.window?_reply_of_shows {question : Question} (h : question.Shows) (space : Space)
    (handle : Handle) : (space.reply question).2.window? handle = space.window? handle := by
  cases handle with
  | detached number => cases question <;> first | rfl | cases h
  | published key =>
      rw [window?_published, window?_published, get?_reply]
      unfold Question.effectAt
      split
      · cases question with
        | gauge own => rcases space.registry.get? key with _ | _ | _ <;> rfl
        | set own value => rcases space.registry.get? key with _ | _ | _ <;> rfl
        | _ => cases h
      · rfl

/-!
# The shape of a key's instrument
-/

def Kind.shape : Kind -> Shape
  | .availability => .gauge
  | _ => .histogram

def Kind.Windowed (kind : Kind) : Prop :=
  kind.shape = .histogram

def Kind.Partial : Kind -> Prop
  | .topicLatency => True
  | .partitionLatency => True
  | _ => False

/-- Whether every metric is kept in its shape. -/
def Registry.Kinded (registry : Registry) : Prop :=
  forall (key : Key) held, registry.get? key.encode = some held -> held.shape = key.kind.shape

/-- Whether a question asks for no instrument but that of a key, in the key's shape. -/
def Question.Fits : Question -> Prop
  | .window own _ => exists key : Key, key.encode = own ∧ key.kind.shape = .histogram
  | .gauge own => exists key : Key, key.encode = own ∧ key.kind.shape = .gauge
  | _ => True

def Question.Claims (allowed : Kind -> Prop) : Question -> Prop
  | .window own _ => exists key : Key, key.encode = own ∧ allowed key.kind
  | .gauge _ => False
  | .set _ _ => False
  | _ => True

theorem Question.Claims.fits {question : Question}
    (h : question.Claims Kind.Windowed) : question.Fits := by
  cases question with
  | window own capacity => exact h
  | gauge own => exact h.elim
  | _ => trivial

def Granted : Dialogue.Exchange Question Answer -> Prop
  | ⟨.window own _, answer⟩ => answer = .ok (.published own)
  | _ => True

theorem Registry.kinded_empty : empty.Kinded := by
  intro key held h
  cases h

theorem Question.shape_effect {question : Question} {held after : Instrument}
    (h : question.effect (some held) = some after) : after.shape = held.shape := by
  cases question <;> cases held <;> cases h <;> rfl

theorem Question.shape_effect_none {question : Question} {key : Key} {after : Instrument}
    (hfits : question.Fits)
    (hkey : question.key? = some key.encode) (h : question.effect none = some after) :
    after.shape = key.kind.shape := by
  cases question with
  | window own capacity =>
      rcases hfits with ⟨asked, rfl, hshape⟩
      cases Key.encode_injective (Option.some.inj hkey)
      cases h
      exact hshape.symm
  | gauge own =>
      rcases hfits with ⟨asked, rfl, hshape⟩
      cases Key.encode_injective (Option.some.inj hkey)
      cases h
      exact hshape.symm
  | _ => cases h

variable {question : Question} {space : Space}

theorem Registry.Kinded.reply (h : space.registry.Kinded) (hfits : question.Fits) :
    (space.reply question).2.registry.Kinded := by
  intro key after hafter
  rw [Space.get?_reply, Question.effectAt] at hafter
  split at hafter
  · next hkey =>
    cases hheld : space.registry.get? key.encode with
    | none =>
        rw [hheld] at hafter
        exact Question.shape_effect_none hfits hkey hafter
    | some held =>
        rw [hheld] at hafter
        rw [Question.shape_effect hafter, h key held hheld]
  · exact h key after hafter

theorem Registry.Kinded.granted (h : space.registry.Kinded) (hfits : question.Fits) :
    Granted { question, answer := (space.reply question).1 } := by
  cases question with
  | window own capacity =>
      rcases hfits with ⟨key, rfl, hshape⟩
      rw [Granted, Space.reply_window_fst]
      split
      · next value hheld => cases (h key _ hheld).trans hshape
      · rfl
  | _ => trivial

end Metric

end BrokerProbe
