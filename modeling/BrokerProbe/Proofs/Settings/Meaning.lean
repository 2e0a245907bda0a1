import BrokerProbe.Proofs.Settings.Reading
import Mathlib.Data.List.Nodup
/-!
# What switches a text gives

An object gives each member what its one mention says, and the default to those
that are not mentioned, in whatever order and among whatever else.  A second
mention is refused.  A list means the object with the members it goes through.
-/

namespace BrokerProbe

namespace Settings

namespace Member

theorem nodup_all : all.Nodup := by decide

theorem mem_all (member : Member) : member ∈ all := by
  cases member with
  | switch each => cases each <;> decide
  | environment => decide

end Member

namespace Switches

variable (switches : Switches)

theorem choice_choose_self (choice : Choice) :
    (switches.choose choice).choice choice.member = choice := by
  cases choice with
  | switch each value =>
      exact congrArg (Choice.switch each) (switches.get_set_self each value)
  | environment name => rfl

theorem choice_choose_of_ne {choice : Choice} {member : Member} (h : member ≠ choice.member) :
    (switches.choose choice).choice member = switches.choice member := by
  cases choice with
  | switch each value =>
      cases member with
      | switch other =>
          have hne : other ≠ each := fun heq => h (congrArg Member.switch heq)
          exact congrArg (Choice.switch other) (switches.get_set_of_ne value hne)
      | environment => cases each <;> rfl
  | environment name =>
      cases member with
      | switch other => cases other <;> rfl
      | environment => exact absurd rfl h

theorem choice_member (member : Member) : (switches.choice member).member = member := by
  cases member <;> rfl

theorem ext_choice {switches other : Switches}
    (h : forall member, switches.choice member = other.choice member) : switches = other := by
  have hget : forall each, switches.get each = other.get each :=
    fun each => (Choice.switch.inj (h (.switch each))).2
  rcases switches with ⟨_, _, _, _, _, _, _⟩
  rcases other with ⟨_, _, _, _, _, _, _⟩
  simp only [Switches.mk.injEq]
  exact ⟨hget .consumerLatency, hget .consumerTopicLatency, hget .consumerPartitionLatency,
    hget .consumerAvailability, hget .metadataLatency, hget .metadataAvailability,
    Choice.environment.inj (h .environment)⟩

theorem choice_foldl_of_not_mem {choices : List Choice} {member : Member}
    (h : member ∉ choices.map Choice.member) :
    (choices.foldl choose switches).choice member = switches.choice member := by
  induction choices generalizing switches with
  | nil => rfl
  | cons choice choices ih =>
      rw [List.map_cons, List.mem_cons, not_or] at h
      rw [List.foldl_cons, ih _ h.2, choice_choose_of_ne switches h.1]

theorem choice_foldl_of_mem {choices : List Choice} (hnodup : (choices.map Choice.member).Nodup)
    {choice : Choice} (h : choice ∈ choices) :
    (choices.foldl choose switches).choice choice.member = choice := by
  induction choices generalizing switches with
  | nil => cases h
  | cons first choices ih =>
      rw [List.map_cons, List.nodup_cons] at hnodup
      rw [List.foldl_cons]
      rcases List.mem_cons.mp h with rfl | hlater
      · rw [choice_foldl_of_not_mem _ hnodup.1, choice_choose_self]
      · exact ih _ hnodup.2 hlater

end Switches

namespace Entry

def choices (entries : List Entry) : List Choice :=
  entries.filterMap choice?

def mentioned (entries : List Entry) : List Member :=
  (choices entries).map Choice.member

theorem mem_choices {entries : List Entry} {choice : Choice} :
    choice ∈ choices entries <-> .known choice ∈ entries := by
  rw [choices, List.mem_filterMap]
  constructor
  · rintro ⟨entry, hentry, heq⟩
    cases entry with
    | known _ =>
        cases heq
        exact hentry
    | unknown _ _ _ => cases heq
  · exact fun h => ⟨_, h, rfl⟩

theorem choices_map_known (choices : List Choice) :
    Entry.choices (choices.map known) = choices := by
  rw [Entry.choices, List.filterMap_map]
  exact List.filterMap_some

end Entry

namespace Reader

theorem enter_of_not_mem {reader : Reader} {choice : Choice} (h : choice.member ∉ reader.met) :
    reader.enter (.known choice) =
      .ok { reader with
        switches := reader.switches.choose choice
        met := choice.member :: reader.met } := by
  rw [enter, if_neg (by simpa using h)]

theorem enter_of_mem {reader : Reader} {choice : Choice} (h : choice.member ∈ reader.met) :
    reader.enter (.known choice) = .error .wrongType := by
  rw [enter, if_pos (by simpa using h)]

theorem foldlM_enter (reader : Reader) {entries : List Entry}
    (hnodup : (Entry.mentioned entries).Nodup)
    (hnew : forall member, member ∈ Entry.mentioned entries -> member ∉ reader.met) :
    exists met, entries.foldlM enter reader =
      .ok { reader with
        switches := (Entry.choices entries).foldl Switches.choose reader.switches, met } := by
  induction entries generalizing reader with
  | nil => exact ⟨reader.met, rfl⟩
  | cons entry entries ih =>
      cases entry with
      | unknown key json h => exact ih reader hnodup hnew
      | known choice =>
          rcases List.nodup_cons.mp hnodup with ⟨hother, hnodup⟩
          rcases List.forall_mem_cons.mp hnew with ⟨hfirst, hnew⟩
          rw [List.foldlM_cons, enter_of_not_mem hfirst]
          refine ih _ hnodup fun member hmember hmet => ?_
          rcases List.mem_cons.mp hmet with rfl | hmet
          · exact hother hmember
          · exact hnew member hmember hmet

theorem foldlM_enter_of_repeated (reader : Reader) {entries : List Entry}
    (h : ¬ ((Entry.mentioned entries).Nodup ∧
      forall member, member ∈ Entry.mentioned entries -> member ∉ reader.met)) :
    entries.foldlM enter reader = .error .wrongType := by
  induction entries generalizing reader with
  | nil => exact absurd ⟨List.nodup_nil, nofun⟩ h
  | cons entry entries ih =>
      cases entry with
      | unknown key json _ => exact ih reader h
      | known choice =>
          rw [List.foldlM_cons]
          by_cases hmet : choice.member ∈ reader.met
          · rw [enter_of_mem hmet]
            rfl
          · rw [enter_of_not_mem hmet]
            refine ih _ fun ⟨hnodup, hnew⟩ => h ⟨?_, ?_⟩
            · refine List.nodup_cons.mpr ⟨fun hmem => ?_, hnodup⟩
              exact hnew _ hmem List.mem_cons_self
            · refine List.forall_mem_cons.mpr ⟨hmet, fun member hmember => ?_⟩
              exact fun hbefore => hnew member hmember (List.mem_cons_of_mem _ hbefore)

end Reader

namespace Switches

theorem parse_of_nodup {entries : List Entry} {text : String}
    (h : (Entry.object entries).WrittenAs text) (hnodup : (Entry.mentioned entries).Nodup) :
    parse text = .ok ((Entry.choices entries).foldl choose Switches.default) := by
  rcases Reader.start.foldlM_enter hnodup (fun _ _ => List.not_mem_nil) with ⟨met, hread⟩
  rw [parse_object h, hread]
  rfl

theorem parse_of_repeated {entries : List Entry} {text : String}
    (h : (Entry.object entries).WrittenAs text) (hrepeated : ¬ (Entry.mentioned entries).Nodup) :
    parse text = .error .wrongType := by
  rw [parse_object h, Reader.start.foldlM_enter_of_repeated fun hall => hrepeated hall.1]
  rfl

/-- Whether switches hold what the members say, and the default where they say nothing. -/
structure Heeds (switches : Switches) (entries : List Entry) : Prop where
  said : forall choice, .known choice ∈ entries -> switches.choice choice.member = choice
  unsaid : forall member, member ∉ Entry.mentioned entries ->
    switches.choice member = Switches.default.choice member

theorem heeds_foldl {entries : List Entry} (hnodup : (Entry.mentioned entries).Nodup) :
    ((Entry.choices entries).foldl choose Switches.default).Heeds entries where
  said _ h := choice_foldl_of_mem _ hnodup (Entry.mem_choices.mpr h)
  unsaid _ h := choice_foldl_of_not_mem _ h

theorem Heeds.unique {switches other : Switches} {entries others : List Entry}
    (h : switches.Heeds entries) (hother : other.Heeds others)
    (hsame : (Entry.choices entries).Perm (Entry.choices others)) : switches = other := by
  refine ext_choice fun member => ?_
  have hmentioned := (hsame.map Choice.member).mem_iff (a := member)
  by_cases hmember : member ∈ Entry.mentioned entries
  · rcases List.mem_map.mp hmember with ⟨choice, hchoice, rfl⟩
    rw [h.said choice (Entry.mem_choices.mp hchoice),
      hother.said choice (Entry.mem_choices.mp (hsame.mem_iff.mp hchoice))]
  · rw [h.unsaid member hmember, hother.unsaid member (fun hmem => hmember (hmentioned.mpr hmem))]

structure Interprets (read : String -> Except Defect Switches) : Prop where
  /-- Each known member that is mentioned once has its value, and all others their default. -/
  meaning : forall entries text, (Entry.object entries).WrittenAs text ->
    (Entry.mentioned entries).Nodup ->
    exists switches, read text = .ok switches ∧ switches.Heeds entries
  order : forall entries others text other, (Entry.object entries).WrittenAs text ->
    (Entry.object others).WrittenAs other ->
    (Entry.choices entries).Perm (Entry.choices others) -> read text = read other
  /-- A list goes through the members in the order of writing, as far as it is long. -/
  list : forall (choices : List Choice) text other, choices.map Choice.member <+: Member.all ->
    (Json.list (choices.map Choice.json)).WrittenAs text ->
    (Entry.object (choices.map .known)).WrittenAs other ->
    exists switches, read text = .ok switches ∧ read other = .ok switches
  /-- A known member that is mentioned twice is a defect, wherever it is. -/
  repeated : forall entries text, (Entry.object entries).WrittenAs text ->
    ¬ (Entry.mentioned entries).Nodup -> read text = .error .wrongType

theorem parse_eq_of_perm {entries others : List Entry} {text other : String}
    (h : (Entry.object entries).WrittenAs text) (hother : (Entry.object others).WrittenAs other)
    (hsame : (Entry.choices entries).Perm (Entry.choices others)) :
    parse text = parse other := by
  have hmentioned := (hsame.map Choice.member).nodup_iff
  by_cases hnodup : (Entry.mentioned entries).Nodup
  · have hotherNodup := hmentioned.mp hnodup
    rw [parse_of_nodup h hnodup, parse_of_nodup hother hotherNodup,
      (heeds_foldl hnodup).unique (heeds_foldl hotherNodup) hsame]
  · rw [parse_of_repeated h hnodup,
      parse_of_repeated hother fun hother => hnodup (hmentioned.mpr hother)]

theorem interprets_parse : Interprets parse where
  meaning _ _ h hnodup := ⟨_, parse_of_nodup h hnodup, heeds_foldl hnodup⟩
  order _ _ _ _ h hother hsame := parse_eq_of_perm h hother hsame
  list choices text other hmembers h hother := by
    have hnodup : (Entry.mentioned (choices.map .known)).Nodup := by
      rw [Entry.mentioned, Entry.choices_map_known]
      exact Member.nodup_all.sublist hmembers.sublist
    have hobject := parse_of_nodup hother hnodup
    rw [Entry.choices_map_known] at hobject
    exact ⟨_, parse_list hmembers h, hobject⟩
  repeated _ _ h hrepeated := parse_of_repeated h hrepeated

open Json in
theorem writtenAs_escaped :
    (Entry.object [.unknown "x" (.list [.number ['1'], .object []]) (by decide),
      .known (.switch .consumerLatency false)]).WrittenAs
      "\x7b \"\\u0078\" : [1, \x7b \x7d] ,\n\"sendConsumerLatency\":false\x7d" := by
  have hkey : Text.utf16 "x" = [0x78] := by decide
  have hspace : forall {text}, Blanks (' ' :: text) text := fun {_} => .more (by decide) .none
  have hbreak : forall {text}, Blanks ('\n' :: text) text := fun {_} => .more (by decide) .none
  have hescape : forall {rest}, Text.Spelled (Text.utf16 "x")
      ('\\' :: 'u' :: '0' :: '0' :: '7' :: '8' :: '"' :: rest) rest := by
    rw [hkey]
    exact .number (i := 0) (j := 0) (k := 7) (l := 8) (.inl rfl) (.inl rfl) (.inl rfl) (.inl rfl)
      .closing
  have hwhole : Whole ['1'] := .digits (by decide) ⟨List.cons_ne_nil _ _, by simp⟩
  have hone : Numeral ['1'] := .mk (.inl rfl) hwhole .absent .absent
  have hlist : forall {rest}, Reads (.padded (.list [.number ['1'], .object []]))
      (" [1, \x7b \x7d] ".toList ++ rest) rest :=
    .padded hspace (.list (.item (.padded .none (.number hone) .none)
      (.lastItem (.padded hspace (.noMembers hspace) .none)))) hspace
  have hunknown : forall {rest}, Reads (.member (Text.utf16 "x") _)
      (" \"\\u0078\" : [1, \x7b \x7d] ".toList ++ rest) rest :=
    .member hspace hescape hspace hlist
  have hknown : forall {rest}, Reads (.member (Text.utf16 "sendConsumerLatency") (.bool false))
      ("\n\"sendConsumerLatency\":false".toList ++ rest) rest :=
    .member hbreak (Text.spelled_flatMap_escape _ _) .none (.padded .none .false .none)
  exact .padded .none (.object (.moreMembers hunknown (.lastMember hknown))) .none

theorem interprets_parse_escaped :
    exists switches,
      parse "\x7b \"\\u0078\" : [1, \x7b \x7d] ,\n\"sendConsumerLatency\":false\x7d" = .ok switches ∧
        switches.Heeds [.unknown "x" (.list [.number ['1'], .object []]) (by decide),
          .known (.switch .consumerLatency false)] :=
  interprets_parse.meaning _ _ writtenAs_escaped (by decide)

end Switches

end Settings

end BrokerProbe
