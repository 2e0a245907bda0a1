import BrokerProbe.Proofs.Metric.Registry
import BrokerProbe.Proofs.Metric.Window
/-!
# Instruments that are shared

What a client is handed for a key is the instrument itself and not a copy, so a
key has to keep the instrument that it was first given.  Here instruments have
numbers, and handles are these numbers; the registry shows what the instruments
of its keys contain.
-/

namespace BrokerProbe

namespace Metric

inductive Change where
  | window (change : Window.Change)
  | set (value : Float)

def Change.apply : Change -> Instrument -> Instrument
  | .window change, .window held => .window (held.apply change)
  | .set value, .gauge _ => .gauge value
  | _, held => held

@[simp] theorem Change.shape_apply (change : Change) (held : Instrument) :
    (change.apply held).shape = held.shape := by
  cases change <;> cases held <;> rfl

theorem Change.shape_foldl (changes : List Change) (held : Instrument) :
    (changes.foldl (fun held change => change.apply held) held).shape = held.shape := by
  induction changes generalizing held with
  | nil => rfl
  | cons change rest ih => exact (ih (change.apply held)).trans (change.shape_apply held)

/-- Instruments in the order in which they were made, and the numbers that keys hold. -/
structure Pool where
  made : List Instrument
  held : List (String × Nat)

/-- An instrument that is brought to a key: a new one, or one that was made before. -/
inductive Offer where
  | new (instrument : Instrument)
  | made (number : Nat)

inductive Call where
  | make (instrument : Instrument)
  | register (key : String) (offer : Offer)
  | getOrRegister (key : String) (offer : Offer)
  | window (key : String) (capacity : Nat)
  | gauge (key : String)
  | get (key : String)
  | change (number : Nat) (change : Change)

inductive Reply where
  | handle (number : Nat)
  | absent
  | finished
  | refused (error : RegistryError)
  deriving DecidableEq

namespace Pool

def empty : Pool :=
  { made := [], held := [] }

def held? (pool : Pool) (key : String) : Option Nat :=
  pool.held.lookup key

def contents (pool : Pool) (number : Nat) : Instrument :=
  pool.made.getD number default

def Has (pool : Pool) (number : Nat) : Prop :=
  number < pool.made.length

def make (pool : Pool) (instrument : Instrument) : Nat × Pool :=
  (pool.made.length, { pool with made := pool.made ++ [instrument] })

def change (pool : Pool) (number : Nat) (change : Change) : Pool :=
  { pool with made := pool.made.modify number change.apply }

def take (pool : Pool) : Offer -> Nat × Pool
  | .new instrument => pool.make instrument
  | .made number => (number, pool)

def put (pool : Pool) (key : String) (offer : Offer) : Nat × Pool :=
  let taken := pool.take offer
  (taken.1, { taken.2 with held := (key, taken.1) :: taken.2.held })

def getOrPut (pool : Pool) (key : String) (offer : Offer) : Nat × Pool :=
  match pool.held? key with
  | some number => (number, pool)
  | none => pool.put key offer

def claim (pool : Pool) (key : String) (shape : Shape) (instrument : Instrument) :
    Reply × Pool :=
  let given := pool.getOrPut key (.new instrument)
  if (given.2.contents given.1).shape = shape then (.handle given.1, given.2)
  else (.refused (.mismatch key shape), given.2)

def answer (pool : Pool) : Call -> Reply × Pool
  | .make instrument =>
      let made := pool.make instrument
      (.handle made.1, made.2)
  | .register key offer =>
      match pool.held? key with
      | some _ => (.refused (.duplicate key), pool)
      | none => (.finished, (pool.put key offer).2)
  | .getOrRegister key offer =>
      let given := pool.getOrPut key offer
      (.handle given.1, given.2)
  | .window key capacity => pool.claim key .histogram (.window (.empty capacity))
  | .gauge key => pool.claim key .gauge (.gauge 0)
  | .get key =>
      match pool.held? key with
      | some number => (.handle number, pool)
      | none => (.absent, pool)
  | .change number change => (.finished, pool.change number change)

end Pool

namespace Call

def uses? : Call -> Option Nat
  | register _ (.made number) => some number
  | getOrRegister _ (.made number) => some number
  | change number _ => some number
  | _ => none

def key? : Call -> Option String
  | getOrRegister key _ => some key
  | window key _ => some key
  | gauge key => some key
  | get key => some key
  | _ => none

def offer? : Call -> Option (String × Offer)
  | register key offer => some (key, offer)
  | getOrRegister key offer => some (key, offer)
  | window key capacity => some (key, .new (.window (.empty capacity)))
  | gauge key => some (key, .new (.gauge 0))
  | _ => none

def changeOf? (number : Nat) : Call -> Option Change
  | change other applied => if other = number then some applied else none
  | _ => none

end Call

namespace Pool

variable {pool : Pool} {call : Call} {calls : List Call} {offer : Offer}
variable {key other : String} {number : Nat}

def Allows (pool : Pool) (call : Call) : Prop :=
  forall number, number ∈ call.uses? -> pool.Has number

instance (pool : Pool) (number : Nat) : Decidable (pool.Has number) :=
  inferInstanceAs (Decidable (number < _))

instance (pool : Pool) (call : Call) : Decidable (pool.Allows call) :=
  inferInstanceAs (Decidable (forall number, number ∈ call.uses? -> pool.Has number))

def run (pool : Pool) (calls : List Call) : Pool :=
  calls.foldl (fun pool call => (pool.answer call).2) pool

def AllowsAll (pool : Pool) : List Call -> Prop
  | [] => True
  | call :: rest => pool.Allows call ∧ (pool.answer call).2.AllowsAll rest

def decidableAllowsAll : (pool : Pool) -> (calls : List Call) -> Decidable (pool.AllowsAll calls)
  | _, [] => inferInstanceAs (Decidable True)
  | pool, call :: rest =>
      have := decidableAllowsAll (pool.answer call).2 rest
      inferInstanceAs (Decidable (_ ∧ _))

instance (pool : Pool) (calls : List Call) : Decidable (pool.AllowsAll calls) :=
  pool.decidableAllowsAll calls

def Sound (pool : Pool) : Prop :=
  forall key number, pool.held? key = some number -> pool.Has number

def brings? (pool : Pool) (call : Call) (key : String) : Option Nat :=
  match call.offer? with
  | some offered => if key = offered.1 then some (pool.take offered.2).1 else none
  | none => none

/-!
# What a call does
-/

theorem getOrPut_of_some (h : pool.held? key = some number) (offer : Offer) :
    pool.getOrPut key offer = (number, pool) := by
  rw [getOrPut, h]

theorem claim_fst (pool : Pool) (key : String) (shape : Shape) (instrument : Instrument) :
    (pool.claim key shape instrument).1 =
      if ((pool.getOrPut key (.new instrument)).2.contents
          (pool.getOrPut key (.new instrument)).1).shape = shape then
        .handle (pool.getOrPut key (.new instrument)).1
      else .refused (.mismatch key shape) := by
  simp only [claim]
  split <;> rfl

theorem claim_snd (pool : Pool) (key : String) (shape : Shape) (instrument : Instrument) :
    (pool.claim key shape instrument).2 = (pool.getOrPut key (.new instrument)).2 := by
  simp only [claim]
  split <;> rfl

theorem answer_snd_of_offer? (pool : Pool) (h : call.offer? = some (key, offer)) :
    (pool.answer call).2 = (pool.getOrPut key offer).2 := by
  cases call with
  | register own offered =>
      cases h
      simp only [answer, getOrPut]
      split <;> rfl
  | getOrRegister own offered =>
      cases h
      rfl
  | window own capacity =>
      cases h
      exact pool.claim_snd key .histogram _
  | gauge own =>
      cases h
      exact pool.claim_snd key .gauge _
  | _ => cases h

theorem answer_get_snd (pool : Pool) (key : String) : (pool.answer (.get key)).2 = pool := by
  simp only [answer]
  split <;> rfl

theorem held?_put (pool : Pool) (key : String) (offer : Offer) (other : String) :
    (pool.put key offer).2.held? other =
      if other = key then some (pool.take offer).1 else pool.held? other := by
  have htaken : (pool.take offer).2.held? other = pool.held? other := by
    cases offer <;> rfl
  rw [<- htaken]
  exact Registry.lookup_entry key _ _ other

theorem held?_getOrPut (pool : Pool) (key : String) (offer : Offer) (other : String) :
    (pool.getOrPut key offer).2.held? other =
      (pool.held? other).or (if other = key then some (pool.take offer).1 else none) := by
  unfold getOrPut
  split
  · next number hheld =>
    split
    · next heq => rw [heq, hheld, Option.some_or]
    · rw [Option.or_none]
  · next hheld =>
    rw [held?_put]
    split
    · next heq => rw [heq, hheld, Option.none_or]
    · rw [Option.or_none]

/-- A key keeps the instrument that it has, and takes up what it is offered if it has none. -/
theorem held?_answer (pool : Pool) (call : Call) (key : String) :
    (pool.answer call).2.held? key = (pool.held? key).or (pool.brings? call key) := by
  cases hoffer : call.offer? with
  | some offered =>
      rw [pool.answer_snd_of_offer? hoffer, held?_getOrPut, brings?, hoffer]
  | none =>
      rw [brings?, hoffer, Option.or_none]
      cases call with
      | get own => rw [answer_get_snd]
      | make instrument => rfl
      | change own applied => rfl
      | _ => cases hoffer

theorem made_put (pool : Pool) (key : String) (offer : Offer) :
    exists more, (pool.put key offer).2.made = pool.made ++ more := by
  cases offer with
  | new instrument => exact ⟨[instrument], rfl⟩
  | made number => exact ⟨[], (List.append_nil _).symm⟩

theorem contents_of_made {after : Pool} {more : List Instrument}
    (h : after.made = pool.made ++ more) (hnumber : pool.Has number) :
    after.contents number = pool.contents number := by
  rw [contents, contents, h, List.getD_eq_getElem?_getD, List.getD_eq_getElem?_getD,
    List.getElem?_append_left hnumber]

theorem made_answer (pool : Pool) (call : Call) :
    (exists own change, call = .change own change) ∨
      (forall number, call.changeOf? number = none) ∧
        exists more, (pool.answer call).2.made = pool.made ++ more := by
  cases hoffer : call.offer? with
  | some offered =>
      right
      rw [pool.answer_snd_of_offer? hoffer]
      refine ⟨?_, ?_⟩
      · cases call with
        | change => cases hoffer
        | _ => exact fun _ => rfl
      · unfold getOrPut
        split
        · exact ⟨[], (List.append_nil _).symm⟩
        · exact pool.made_put _ _
  | none =>
      cases call with
      | change own applied => exact .inl ⟨own, applied, rfl⟩
      | make instrument => exact .inr ⟨fun _ => rfl, [instrument], rfl⟩
      | get own =>
          refine .inr ⟨fun _ => rfl, [], ?_⟩
          rw [answer_get_snd, List.append_nil]
      | _ => cases hoffer

/-- An instrument changes through its own handles only, and through each of them. -/
theorem contents_answer (pool : Pool) (call : Call) (h : pool.Has number) :
    (pool.answer call).2.contents number =
      ((call.changeOf? number).map fun change => change.apply (pool.contents number)).getD
        (pool.contents number) := by
  rcases pool.made_answer call with ⟨own, applied, rfl⟩ | ⟨hunchanged, more, hmore⟩
  · simp only [answer, Pool.change, contents, Call.changeOf?, List.getD_eq_getElem?_getD,
      List.getElem?_modify, List.getElem?_eq_getElem h]
    split <;> rfl
  · rw [contents_of_made hmore h, hunchanged]
    rfl

theorem Has.answer (h : pool.Has number) (call : Call) : (pool.answer call).2.Has number := by
  rcases pool.made_answer call with ⟨own, applied, rfl⟩ | ⟨_, more, hmore⟩
  · exact Nat.lt_of_lt_of_eq h (List.length_modify ..).symm
  · rw [Has, hmore, List.length_append]
    exact Nat.lt_add_right _ h

theorem Allows.has_take (h : pool.Allows call) (hoffer : call.offer? = some (key, offer)) :
    (pool.put key offer).2.Has (pool.take offer).1 := by
  cases offer with
  | new instrument => simp [put, take, make, Has]
  | made number =>
      apply h number
      cases call <;> cases hoffer <;> rfl

theorem brings?_eq_some (h : pool.brings? call key = some number) :
    exists offer, call.offer? = some (key, offer) ∧ (pool.take offer).1 = number := by
  unfold brings? at h
  split at h
  · next offered hoffer =>
    split at h
    · next heq =>
      subst heq
      exact ⟨offered.2, hoffer, Option.some.inj h⟩
    · cases h
  · cases h

theorem Sound.answer (h : pool.Sound) (hallows : pool.Allows call) :
    (pool.answer call).2.Sound := by
  intro key number hheld
  rw [held?_answer] at hheld
  cases hbefore : pool.held? key with
  | some before =>
      rw [hbefore, Option.some_or] at hheld
      exact (h key number (hbefore.trans hheld)).answer call
  | none =>
      rw [hbefore, Option.none_or] at hheld
      rcases brings?_eq_some hheld with ⟨offer, hoffer, rfl⟩
      rw [pool.answer_snd_of_offer? hoffer, getOrPut, hbefore]
      exact hallows.has_take hoffer

end Pool

end Metric

end BrokerProbe
