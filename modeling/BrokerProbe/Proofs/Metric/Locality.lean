import BrokerProbe.Proofs.Dialogue.Ensures
import BrokerProbe.Proofs.Metric.Hall
/-!
# Acts on a part of the registry

Whoever names no keys but some sees what is under these and nothing else, and
leaves alone what has nothing in common with them.  So two can act in either order
who name different keys, unless an instrument is under a key of each.  A publisher
and its tallies name the keys of their role.
-/

namespace BrokerProbe

namespace Metric

variable {Result Final : Type} {keys others : String -> Prop}

/-!
# Acts that keep to keys
-/

namespace Commons

variable {first second third commons : Commons} {text : String}

def Reach (commons : Commons) (keys : String -> Prop) (text : String) : Prop :=
  exists key, keys key ∧ commons.Joint key text

structure Agree (keys : String -> Prop) (first second : Commons) : Prop where
  joint : first.Joint = second.Joint
  get?_eq : forall text, first.Reach keys text ->
    first.view.get? text = second.view.get? text

structure Alike (first second : Commons) : Prop where
  joint : first.Joint = second.Joint
  view : first.view = second.view

theorem alike_refl (commons : Commons) : commons.Alike commons :=
  ⟨rfl, rfl⟩

theorem Alike.symm (h : first.Alike second) : second.Alike first :=
  ⟨h.joint.symm, h.view.symm⟩

theorem Alike.trans (h : first.Alike second) (hnext : second.Alike third) :
    first.Alike third :=
  ⟨h.joint.trans hnext.joint, h.view.trans hnext.view⟩

theorem Alike.agree (h : first.Alike second) (keys : String -> Prop) :
    first.Agree keys second :=
  ⟨h.joint, fun _ _ => by rw [h.view]⟩

theorem reach_of_joint_eq (h : first.Joint = second.Joint) :
    first.Reach keys text <-> second.Reach keys text := by
  rw [Reach, Reach, h]

def Separates (commons : Commons) (keys others : String -> Prop) : Prop :=
  forall key other, keys key -> others other -> ¬ commons.Joint key other

theorem Separates.not_reach (h : commons.Separates keys others) (hkeys : commons.Reach keys text) :
    ¬ commons.Reach others text := by
  rintro ⟨other, hother, hjoint⟩
  rcases hkeys with ⟨key, hkey, htext⟩
  exact h key other hkey hother (htext.trans hjoint.symm)

theorem Separates.of_joint_eq (h : first.Separates keys others)
    (hjoint : second.Joint = first.Joint) : second.Separates keys others := by
  rwa [Separates, hjoint]

end Commons

/-- Whether an act depends on what some keys reach, and changes nothing else. -/
structure Local (keys : String -> Prop) (act : Commons -> Result × Commons) : Prop where
  joint : forall commons, (act commons).2.Joint = commons.Joint
  frame : forall commons text, ¬ commons.Reach keys text ->
    (act commons).2.view.get? text = commons.view.get? text
  congr : forall {first second : Commons}, first.Agree keys second ->
    (act first).1 = (act second).1 ∧ (act first).2.Agree keys (act second).2

namespace Local

variable {act : Commons -> Result × Commons} {other : Commons -> Final × Commons}

theorem aside (hafter : forall commons, (act commons).2 = commons)
    (hresult : forall first second, (act first).1 = (act second).1) : Local keys act where
  joint commons := by rw [hafter]
  frame commons text _ := by rw [hafter]
  congr {first second} hagree := by
    rw [hafter, hafter]
    exact ⟨hresult first second, hagree⟩

theorem map (h : Local keys act) (image : Result -> Final) :
    Local keys fun commons => (image (act commons).1, (act commons).2) where
  joint := h.joint
  frame := h.frame
  congr hagree := ⟨congrArg image (h.congr hagree).1, (h.congr hagree).2⟩

theorem bind (h : Local keys act) (next : Result -> Commons -> Final × Commons)
    (hnext : forall commons, Local keys (next (act commons).1)) :
    Local keys fun commons => next (act commons).1 (act commons).2 where
  joint commons := ((hnext commons).joint _).trans (h.joint commons)
  frame commons text htext := by
    refine ((hnext commons).frame _ text ?_).trans (h.frame commons text htext)
    rwa [Commons.reach_of_joint_eq (h.joint commons)]
  congr {first second} hagree := by
    rcases h.congr hagree with ⟨hresult, hafter⟩
    rw [hresult]
    exact (hnext second).congr hafter

theorem alike (h : Local keys act) {first second : Commons} (halike : first.Alike second) :
    (act first).1 = (act second).1 ∧ (act first).2.Alike (act second).2 := by
  rcases h.congr (halike.agree keys) with ⟨hresult, hagree⟩
  refine ⟨hresult, hagree.joint, Registry.ext_get? fun text => ?_⟩
  by_cases htext : first.Reach keys text
  · exact hagree.get?_eq text ((Commons.reach_of_joint_eq (h.joint first)).mpr htext)
  · have hother : ¬ second.Reach keys text := by
      rwa [<- Commons.reach_of_joint_eq halike.joint]
    rw [h.frame first text htext, h.frame second text hother, halike.view]

/-- Acts whose keys have nothing in common come to the same in either order. -/
theorem comm (h : Local keys act) (hother : Local others other) (commons : Commons)
    (hapart : commons.Separates keys others) :
    (act (other commons).2).1 = (act commons).1 ∧
      (other (act commons).2).1 = (other commons).1 ∧
      (act (other commons).2).2.Alike (other (act commons).2).2 := by
  have hkeys : (other commons).2.Agree keys commons := by
    refine ⟨hother.joint commons, fun text htext => hother.frame commons text ?_⟩
    exact hapart.not_reach ((Commons.reach_of_joint_eq (hother.joint commons)).mp htext)
  have hothers : (act commons).2.Agree others commons := by
    refine ⟨h.joint commons, fun text htext => h.frame commons text fun hown => ?_⟩
    exact hapart.not_reach hown ((Commons.reach_of_joint_eq (h.joint commons)).mp htext)
  have hjoint : (act (other commons).2).2.Joint = commons.Joint :=
    (h.joint _).trans (hother.joint commons)
  have hjoint' : (other (act commons).2).2.Joint = commons.Joint :=
    (hother.joint _).trans (h.joint commons)
  refine ⟨(h.congr hkeys).1, (hother.congr hothers).1, hjoint.trans hjoint'.symm,
    Registry.ext_get? fun text => ?_⟩
  -- What is within reach of one act is changed by it alone, whichever comes first.
  by_cases htext : commons.Reach keys text
  · have hleft := (h.congr hkeys).2.get?_eq text ((Commons.reach_of_joint_eq hjoint).mpr htext)
    rw [hleft, hother.frame _ text]
    rw [Commons.reach_of_joint_eq (h.joint commons)]
    exact hapart.not_reach htext
  · rw [h.frame _ text (by rwa [Commons.reach_of_joint_eq (hother.joint commons)])]
    by_cases htext' : commons.Reach others text
    · exact ((hother.congr hothers).2.get?_eq text
        ((Commons.reach_of_joint_eq hjoint').mpr htext')).symm
    · rw [hother.frame _ text htext',
        hother.frame _ text (by rwa [Commons.reach_of_joint_eq (h.joint commons)]),
        h.frame _ text htext]

end Local

/-!
# Questions that keep to keys
-/

def Handle.Within (keys : String -> Prop) : Handle -> Prop
  | .published key => keys key
  | .detached _ => True

/-- Whether a question names no keys but some, neither itself nor through a handle. -/
def Question.Names (keys : String -> Prop) : Question -> Prop
  | .window key _ => keys key
  | .gauge key => keys key
  | .detach _ => True
  | .resize handle _ => handle.Within keys
  | .record handle _ => handle.Within keys
  | .read handle => handle.Within keys
  | .set key _ => keys key

theorem Question.Names.of_key? {question : Question} {key : String} (h : question.Names keys)
    (hkey : question.key? = some key) : keys key := by
  cases question with
  | window own capacity => cases hkey; exact h
  | gauge own => cases hkey; exact h
  | set own value => cases hkey; exact h
  | resize handle capacity => cases handle <;> cases hkey; exact h
  | record handle value => cases handle <;> cases hkey; exact h
  | detach capacity => cases hkey
  | read handle => cases hkey

def Hall.act (question : Question) (detached : Array Window) (commons : Commons) :
    (Answer question × Array Window) × Commons :=
  let given := Hall.reply question { commons, detached }
  ((given.1, given.2.detached), given.2.commons)

theorem Space.window?_congr {first second : Registry} {handle : Handle}
    (h : handle.Within keys) (hagree : forall key, keys key -> first.get? key = second.get? key)
    (detached : Array Window) :
    window? { registry := first, detached } handle =
      window? { registry := second, detached } handle := by
  cases handle with
  | detached number => rfl
  | published key =>
      rw [window?_published, window?_published]
      exact congrArg (fun held => held.bind Instrument.window?) (hagree key h)

theorem Space.reply_congr {first second : Registry} {question : Question}
    (h : question.Names keys) (hagree : forall key, keys key -> first.get? key = second.get? key)
    (detached : Array Window) :
    (reply question { registry := first, detached }).1 =
        (reply question { registry := second, detached }).1 ∧
      (reply question { registry := first, detached }).2.detached =
        (reply question { registry := second, detached }).2.detached := by
  cases question with
  | window own capacity =>
      refine ⟨?_, rfl⟩
      simp only [reply_window_fst, hagree own h]
  | gauge own =>
      refine ⟨?_, rfl⟩
      simp only [reply_gauge_fst, hagree own h]
  | read handle =>
      simp only [reply, window?_congr h hagree detached]
      cases window? { registry := second, detached } handle <;> exact ⟨rfl, rfl⟩
  | detach capacity => exact ⟨rfl, rfl⟩
  | set own value => exact ⟨rfl, rfl⟩
  | resize handle capacity => cases handle <;> exact ⟨rfl, rfl⟩
  | record handle value => cases handle <;> exact ⟨rfl, rfl⟩

theorem Hall.local_act {question : Question} (h : question.Names keys)
    (detached : Array Window) : Local keys (Hall.act question detached) where
  joint commons := commons.joint_follow question
  frame commons text htext := Commons.get?_follow_of_not_joint fun key hkey hjoint =>
    htext ⟨key, h.of_key? hkey, hjoint⟩
  congr {first second} hagree := by
    have hkeys : forall key, keys key -> first.view.get? key = second.view.get? key :=
      fun key hkey => hagree.get?_eq key ⟨key, hkey, first.joint_refl key⟩
    rcases Space.reply_congr h hkeys detached with ⟨hanswer, hdetached⟩
    refine ⟨Prod.ext hanswer hdetached, ?_, fun text htext => ?_⟩
    · exact (first.joint_follow question).trans
        (hagree.joint.trans (second.joint_follow question).symm)
    · -- A key within reach is joined to the key of the question, or the question passes it by.
      have hsame := hagree.get?_eq text
        ((Commons.reach_of_joint_eq (first.joint_follow question)).mp htext)
      by_cases hjoint : exists key, question.key? = some key ∧ first.Joint key text
      · rcases hjoint with ⟨key, hkey, hjoint⟩
        have hfirst := Commons.get?_follow_of_joint hkey hjoint
        have hsecond := Commons.get?_follow_of_joint hkey (hagree.joint ▸ hjoint)
        exact hfirst.trans ((congrArg question.effect hsame).trans hsecond.symm)
      · have hfirst : (first.follow question).view.get? text = first.view.get? text :=
          Commons.get?_follow_of_not_joint fun key hkey hown => hjoint ⟨key, hkey, hown⟩
        have hsecond : (second.follow question).view.get? text = second.view.get? text :=
          Commons.get?_follow_of_not_joint fun key hkey hown =>
            hjoint ⟨key, hkey, hagree.joint ▸ hown⟩
        exact hfirst.trans (hsame.trans hsecond.symm)

theorem Question.hands {good : Handle -> Prop} {question : Question}
    (hpublished : forall key capacity, question = .window key capacity -> good (.published key))
    (hdetached : forall number, good (.detached number)) (space : Space) :
    Hands good ⟨question, (space.reply question).1⟩ := by
  cases question with
  | window key capacity =>
      intro handle hgiven
      obtain ⟨rfl, _⟩ := Space.window?_of_granted hgiven
      exact hpublished key capacity rfl
  | detach capacity => exact hdetached _
  | _ => trivial

theorem Question.Names.hands {question : Question} (h : question.Names keys) (space : Space) :
    Hands (Handle.Within keys) ⟨question, (space.reply question).1⟩ := by
  refine Question.hands ?_ (fun _ => trivial) space
  rintro key capacity rfl
  exact h

/-!
# The keys of a publisher
-/

namespace Publisher

variable {publisher other : Publisher} {key : Key} {text : String}

def Owns (publisher : Publisher) (text : String) : Prop :=
  exists key : Key, key.role = publisher.role ∧ publisher.flags.enabled key.kind = true ∧
    key.encode = text

theorem owns (hrole : key.role = publisher.role)
    (henabled : publisher.flags.enabled key.kind = true) : publisher.Owns key.encode :=
  ⟨key, hrole, henabled, rfl⟩

/-- No key has two roles, whatever its scope. -/
theorem Owns.not_owns (h : publisher.role ≠ other.role) (howns : publisher.Owns text) :
    ¬ other.Owns text := by
  rintro ⟨_, hother, _, hkey⟩
  rcases howns with ⟨_, hrole, _, rfl⟩
  exact h (hrole.symm.trans ((congrArg Key.role (Key.encode_injective hkey)).symm.trans hother))

end Publisher

/-- Whether no instrument is under one of some keys and under a different one of others. -/
def Commons.Unshared (commons : Commons) (keys others : String -> Prop) : Prop :=
  forall key other, keys key -> others other -> commons.Joint key other -> key = other

theorem Commons.Sole.unshared {commons : Commons} (h : commons.Sole)
    (keys others : String -> Prop) : commons.Unshared keys others :=
  fun key other _ _ hjoint => h other key hjoint

theorem Commons.unshared_of_names {commons : Commons} {others : String -> Prop}
    (h : forall text, text ∈ commons.view.names -> ¬ others text) (keys : String -> Prop) :
    commons.Unshared keys others := by
  rintro key other _ hother (heq | ⟨number, _, hheld⟩)
  · exact heq
  · refine absurd hother (h other (Pool.mem_names_view_iff.mpr ?_))
    rw [hheld]
    exact Option.some_ne_none number

theorem Commons.Unshared.separates {commons : Commons} {publisher other : Publisher}
    (h : commons.Unshared publisher.Owns other.Owns) (hroles : publisher.role ≠ other.role) :
    commons.Separates publisher.Owns other.Owns := by
  intro key own hkey hown hjoint
  obtain rfl := h key own hkey hown hjoint
  exact hkey.not_owns hroles hown

def Recording.KeepsTo {Value : Type} (publisher : Publisher) (fit : Value -> Prop)
    (recording : Recording Value) : Prop :=
  recording.Ensures (Question.Names publisher.Owns) (Hands (Handle.Within publisher.Owns)) fit

abbrev Handle.Of (publisher : Publisher) : Handle -> Prop :=
  Handle.Within publisher.Owns

variable {publisher : Publisher}

theorem Publisher.keepsTo_window {key : Key} (h : key.role = publisher.role) (capacity : Nat) :
    (publisher.window key capacity).KeepsTo publisher (Handle.Of publisher) := by
  unfold Publisher.window
  split
  · next henabled =>
    have hkey := owns h henabled
    refine ⟨hkey, ?_⟩
    rintro (error | handle) hgood
    · exact ⟨trivial, fun _ hgood => hgood⟩
    · exact ⟨hgood handle rfl, fun _ _ => hgood handle rfl⟩
  · exact ⟨trivial, fun _ hgood => hgood⟩

theorem Publisher.keepsTo_showAvailability (ratio : Option Float) :
    (publisher.showAvailability ratio).KeepsTo publisher fun _ => True := by
  by_cases h : publisher.flags.availability = true
  · have howns : publisher.Owns (Key.availability publisher.role).encode := owns rfl h
    exact (asks_showAvailability ratio howns fun _ => howns).ensures
  · unfold showAvailability
    rw [if_neg h]
    trivial

namespace Tally

structure Of (publisher : Publisher) (tally : Tally) : Prop where
  recorder : tally.publisher = publisher
  overall : tally.overall.Of publisher
  beside : tally.Beside (Handle.Of publisher)

variable {tally : Tally}

theorem Of.withTopic (h : tally.Of publisher) (name : String) {handle : Handle}
    (hhandle : handle.Of publisher) :
    Of publisher { tally with topics := (name, handle) :: tally.topics } where
  recorder := h.recorder
  overall := h.overall
  beside := (h.beside.keeps_topic name hhandle).beside

theorem Of.withPartition (h : tally.Of publisher) (partition : Partition) {handle : Handle}
    (hhandle : handle.Of publisher) :
    Of publisher { tally with partitions := (partition, handle) :: tally.partitions } where
  recorder := h.recorder
  overall := h.overall
  beside := (h.beside.keeps_partition partition hhandle).beside

theorem Of.keepsTo_window (h : tally.Of publisher) {key : Key}
    (hkey : key.role = tally.publisher.role) (capacity : Nat) :
    (tally.publisher.window key capacity).KeepsTo publisher (Handle.Of publisher) := by
  obtain rfl := h.recorder
  exact Publisher.keepsTo_window hkey capacity

theorem Of.keepsTo_claimPartition (h : tally.Of publisher) (partition : Partition) :
    (tally.claimPartition partition).KeepsTo publisher (Of publisher) :=
  (h.keepsTo_window rfl _).bind fun _ hhandle => h.withPartition partition hhandle

theorem Of.keepsTo_plan (h : tally.Of publisher) (topic : Topic) :
    (tally.plan topic).KeepsTo publisher (Of publisher) := by
  have hclaim :
      (tally.claimTopic topic.name topic.partitionCount).KeepsTo publisher (Of publisher) :=
    (h.keepsTo_window rfl _).bind fun _ hhandle => h.withTopic topic.name hhandle
  refine hclaim.bind fun claimed hclaimed => ?_
  exact Dialogue.Ensures.foldlM (fun _ partition h => h.keepsTo_claimPartition partition)
    hclaimed topic.partitions

theorem keepsTo_start (publisher : Publisher) (topics : Topology) :
    (start publisher topics).KeepsTo publisher (Of publisher) := by
  refine (Publisher.keepsTo_window rfl _).bind fun overall hoverall => ?_
  refine Dialogue.Ensures.foldlM (fun _ topic h => h.keepsTo_plan topic) ?_ topics
  exact ⟨rfl, hoverall, beside_opened⟩

theorem keepsTo_record {handle : Handle} {elapsed : Nat} {held : Tally}
    (hhandle : handle.Of publisher) (hheld : held.Of publisher) :
    Recording.KeepsTo publisher (Of publisher) (do
      Recording.record handle elapsed
      return held) :=
  ⟨hhandle, fun _ _ => hheld⟩

theorem Of.keepsTo_recordTopic (h : tally.Of publisher) (name : String) (elapsed : Nat) :
    (tally.recordTopic name elapsed).KeepsTo publisher (Of publisher) := by
  unfold recordTopic
  split
  · next handle hlookup => exact keepsTo_record (good_of_lookup hlookup h.beside.topics) h
  · refine (h.keepsTo_window rfl _).bind fun handle hhandle => ?_
    exact keepsTo_record hhandle (h.withTopic name hhandle)

theorem Of.keepsTo_recordPartition (h : tally.Of publisher) (partition : Partition)
    (elapsed : Nat) :
    (tally.recordPartition partition elapsed).KeepsTo publisher (Of publisher) := by
  unfold recordPartition
  split
  · next handle hlookup => exact keepsTo_record (good_of_lookup hlookup h.beside.partitions) h
  · refine (h.keepsTo_window rfl _).bind fun handle hhandle => ?_
    exact keepsTo_record hhandle (h.withPartition partition hhandle)

theorem Of.keepsTo_recordOutcome (h : tally.Of publisher) (outcome : Probe.Outcome) :
    (tally.recordOutcome outcome).KeepsTo publisher (Of publisher) := by
  have hcounted : (tally.count outcome).Of publisher :=
    ⟨h.recorder, h.overall, h.beside.topics, h.beside.partitions⟩
  refine ⟨h.overall, fun _ _ => ?_⟩
  exact (hcounted.keepsTo_recordTopic _ _).bind fun _ h => h.keepsTo_recordPartition _ _

theorem Of.keepsTo_summary (h : tally.Of publisher) :
    tally.summary.KeepsTo publisher fun _ => True :=
  ⟨h.overall, fun _ _ => trivial⟩

end Tally

end Metric

end BrokerProbe
