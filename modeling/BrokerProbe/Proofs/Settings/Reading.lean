import BrokerProbe.Proofs.Settings.Skipping
/-!
# What a text of switches means

An object says of each known member what to choose, and anything else of unknown
ones.  Reading it comes to taking in its members one after the other.
-/

namespace BrokerProbe

namespace Settings

inductive Choice where
  | switch (switch : Switch) (value : Bool)
  | environment (name : Option String)
  deriving DecidableEq

namespace Choice

def member : Choice -> Member
  | switch each _ => .switch each
  | environment _ => .environment

def json : Choice -> Json
  | switch _ value => .bool value
  | environment none => .null
  | environment (some name) => .ofText name

end Choice

inductive Entry where
  | known (choice : Choice)
  | unknown (key : String) (json : Json) (h : key ∉ Member.all.map Member.name)

namespace Entry

def key : Entry -> String
  | known choice => choice.member.name
  | unknown key _ _ => key

def json : Entry -> Json
  | known choice => choice.json
  | unknown _ json _ => json

def choice? : Entry -> Option Choice
  | known choice => some choice
  | unknown _ _ _ => none

def object (entries : List Entry) : Json :=
  .object (entries.map fun entry => (Text.utf16 entry.key, entry.json))

end Entry

namespace Switches

def choice (switches : Switches) : Member -> Choice
  | .switch each => .switch each (switches.get each)
  | .environment => .environment switches.environment

def choose (switches : Switches) : Choice -> Switches
  | .switch each value => switches.set each value
  | .environment name => { switches with environment := name }

end Switches

theorem ofName?_name (member : Member) : Member.ofName? member.name = some member := by
  cases member with
  | switch each => cases each <;> decide
  | environment => decide

theorem ofName?_eq_none {key : String} (h : key ∉ Member.all.map Member.name) :
    Member.ofName? key = none := by
  rw [Member.ofName?, List.find?_eq_none]
  intro member hmember heq
  exact h (List.mem_map.mpr ⟨member, hmember, eq_of_beq heq⟩)

namespace Reader

/-!
# Values of known members
-/

def settled (reader : Reader) (choice : Choice) (holder : Holder) : Reader :=
  { reader with switches := reader.switches.choose choice, place := afterValue holder }

theorem awaitsToken_settled (reader : Reader) (choice : Choice) (holder : Holder) :
    (reader.settled choice holder).place.awaitsToken = true := by
  cases holder <;> rfl

theorem run_name (reader : Reader) {name : String} (holder : Holder) {text rest : List Char}
    (h : Text.Spelled (Text.utf16 name) text rest) :
    ({ reader with place := .text .opened true holder } : Reader).run text =
      (reader.settled (.environment (some name)) holder).run rest := by
  refine (run_scan (fun scan => { reader with place := .text scan true holder })
    (fun content => reader.accept (.environment (some (String.ofList content))) holder) ?_
    h.run?_opened).trans ?_
  · intro scan c
    simp only [step]
    cases scan.step .kept c <;> rfl
  · rw [String.ofList_toList]
    rfl

theorem run_stepKnown (reader : Reader) {choice : Choice} (holder : Holder) {c : Char}
    {text rest : List Char} (h : Json.Reads (.value choice.json) (c :: text) rest) :
    (reader.stepKnown choice.member holder c >>= fun next => next.run text) =
      (reader.settled choice holder).run rest := by
  match choice with
  | .switch _ true =>
      cases h
      rfl
  | .switch _ false =>
      cases h
      rfl
  | .environment none =>
      cases h
      rfl
  | .environment (some name) =>
      cases h with
      | text h => exact reader.run_name holder h

theorem run_padded {reader : Reader} {choice : Choice} {holder : Holder}
    (hreader : reader.place.awaitsToken = true)
    (hstep : forall c, c ∉ Json.blanks ++ Json.enders ->
      reader.step c = reader.stepKnown choice.member holder c)
    {text rest : List Char} (h : Json.Reads (.padded choice.json) text rest) :
    reader.run text = (reader.settled choice holder).run rest := by
  cases h with
  | padded hbefore h hafter =>
      rcases h.head with ⟨c, cs, rfl, hc⟩
      rw [run_blanks hreader hbefore, run_cons, hstep c (Json.not_mem_of_token hc),
        reader.run_stepKnown holder h, run_blanks (awaitsToken_settled _ _ _) hafter]

/-!
# Members
-/

/-- Takes in a member: a known one may be met once, an unknown one is passed over. -/
def enter (reader : Reader) : Entry -> Except Defect Reader
  | .known choice =>
      if reader.met.contains choice.member then .error .wrongType
      else .ok { reader with
        switches := reader.switches.choose choice
        met := choice.member :: reader.met }
  | .unknown _ _ _ => .ok reader

theorem run_key (reader : Reader) {key : String} {text name rest : List Char}
    (hbefore : Json.Blanks text ('"' :: name)) (h : Text.Spelled (Text.utf16 key) name rest) :
    ({ reader with place := .nextKey } : Reader).run text =
      reader.closeKey key.toList >>= fun next => next.run rest := by
  have hquote : ({ reader with place := .nextKey } : Reader).step '"' =
      .ok { reader with place := .key .opened } := rfl
  rw [run_blanks rfl hbefore, run_cons_of_step hquote]
  refine run_scan (fun scan => { reader with place := .key scan }) reader.closeKey ?_ h.run?_opened
  intro scan c
  simp only [step]
  cases scan.step .kept c <;> rfl

theorem closeKey_known (reader : Reader) (member : Member) :
    reader.closeKey member.name.toList =
      if reader.met.contains member then .error .wrongType
      else .ok { reader with met := member :: reader.met, place := .colon (some member) } := by
  rw [closeKey, String.ofList_toList, ofName?_name]

theorem closeKey_unknown (reader : Reader) {key : String} (h : key ∉ Member.all.map Member.name) :
    reader.closeKey key.toList = .ok { reader with place := .colon none } := by
  rw [closeKey, String.ofList_toList, ofName?_eq_none h]
  rfl

theorem run_choice (reader : Reader) (choice : Choice) {text value rest : List Char}
    (hbefore : Json.Blanks text (':' :: value))
    (h : Json.Reads (.padded choice.json) value rest) :
    ({ reader with place := .colon (some choice.member) } : Reader).run text =
      (reader.settled choice .member).run rest := by
  have hcolon : ({ reader with place := .colon (some choice.member) } : Reader).step ':' =
      .ok { reader with place := .value choice.member } := rfl
  rw [run_blanks rfl hbefore, run_cons_of_step hcolon]
  exact run_padded rfl (fun _ _ => rfl) h

theorem run_member (reader : Reader) (entry : Entry) {text rest : List Char}
    (h : Json.Reads (.member (Text.utf16 entry.key) entry.json) text rest)
    (hrest : Starts Json.enders rest) :
    ({ reader with place := .nextKey } : Reader).run text =
      reader.enter entry >>= fun next =>
        ({ next with place := .afterMember } : Reader).run rest := by
  cases h with
  | member hbefore hkey hafter h =>
      rw [reader.run_key hbefore hkey]
      cases entry with
      | unknown key json hunknown =>
          have hcolon : ({ reader with place := .colon none } : Reader).step ':' =
              .ok (reader.passing .value []) := rfl
          rw [Entry.key, reader.closeKey_unknown hunknown]
          show ({ reader with place := .colon none } : Reader).run _ = _
          rw [run_blanks rfl hafter, run_cons_of_step hcolon, passedOver h hrest]
          rfl
      | known choice =>
          rw [Entry.key, reader.closeKey_known, enter]
          split
          · rfl
          · exact run_choice { reader with met := choice.member :: reader.met } choice hafter h

theorem run_finished (reader : Reader) {text : List Char} (h : Json.Blanks text []) :
    (({ reader with place := .finished } : Reader).run text >>= finish) = .ok reader.switches := by
  rw [run_blanks rfl h]
  rfl

theorem run_members (reader : Reader) (entries : List Entry) {text rest : List Char}
    (h : Json.Reads (.members (entries.map fun entry => (Text.utf16 entry.key, entry.json))) text
      ('}' :: rest)) :
    ({ reader with place := .nextKey } : Reader).run text =
      entries.foldlM enter reader >>= fun next =>
        ({ next with place := .finished } : Reader).run rest := by
  induction entries generalizing reader text with
  | nil => cases h
  | cons entry entries ih =>
      rw [List.foldlM_cons]
      cases entries with
      | nil =>
          cases h with
          | lastMember h =>
              rw [reader.run_member entry h ⟨_, _, rfl, by decide⟩]
              cases reader.enter entry <;> rfl
          | moreMembers _ hlater => cases hlater
      | cons other entries =>
          cases h with
          | moreMembers h hlater =>
              rw [reader.run_member entry h ⟨_, _, rfl, by decide⟩]
              cases reader.enter entry with
              | error defect => rfl
              | ok next => exact ih next hlater

theorem run_firstKey (reader : Reader) {text name : List Char}
    (h : Json.Blanks text ('"' :: name)) :
    ({ reader with place := .firstKey } : Reader).run text =
      ({ reader with place := .nextKey } : Reader).run text := by
  rw [run_blanks rfl h, run_blanks rfl h]
  rfl

theorem run_object (reader : Reader) (entries : List Entry) {text rest : List Char}
    (h : Json.Reads (.value (Entry.object entries)) text rest) :
    ({ reader with place := .start } : Reader).run text =
      entries.foldlM enter reader >>= fun next =>
        ({ next with place := .finished } : Reader).run rest := by
  have hopen : ({ reader with place := .start } : Reader).step '{' =
      .ok { reader with place := .firstKey } := rfl
  rw [Entry.object] at h
  cases entries with
  | nil =>
      cases h with
      | noMembers h =>
          rw [run_cons_of_step hopen, run_blanks rfl h]
          rfl
      | object h => cases h
  | cons entry entries =>
      cases h with
      | object h =>
          rcases h.members_front with ⟨name, hfront⟩
          rw [run_cons_of_step hopen, reader.run_firstKey hfront]
          exact reader.run_members (entry :: entries) h

/-!
# Lists
-/

/-- An element is taken in as the member that has its place in the order of writing. -/
theorem run_element (reader : Reader) {count : Nat} {choice : Choice}
    (hmember : Member.all[count]? = some choice.member) {text rest : List Char}
    (h : Json.Reads (.padded choice.json) text rest) :
    ({ reader with place := .nextElement count } : Reader).run text =
      (reader.settled choice (.element (count + 1))).run rest := by
  refine (run_padded rfl (fun c hc => ?_) h).trans rfl
  rw [List.mem_append, not_or] at hc
  simp [step, not_isJsonBlank_of_not_mem hc.1, stepElement, hmember]

theorem run_items (reader : Reader) (count : Nat) (choices : List Choice)
    (hmembers : choices.map Choice.member <+: Member.all.drop count) {text rest : List Char}
    (h : Json.Reads (.items (choices.map Choice.json)) text (']' :: rest)) :
    ({ reader with place := .nextElement count } : Reader).run text =
      ({ reader with
        switches := choices.foldl Switches.choose reader.switches
        place := .finished } : Reader).run rest := by
  induction choices generalizing reader count text with
  | nil => cases h
  | cons choice choices ih =>
      have hcount : count < Member.all.length := by
        have hlength := hmembers.length_le
        simp at hlength
        omega
      rw [List.drop_eq_getElem_cons hcount, List.map_cons, List.cons_prefix_cons] at hmembers
      have hmember : Member.all[count]? = some choice.member := by
        rw [hmembers.1, List.getElem?_eq_getElem hcount]
      cases choices with
      | nil =>
          cases h with
          | lastItem h =>
              rw [reader.run_element hmember h]
              exact run_cons_of_step rfl _
          | item _ hlater => cases hlater
      | cons other choices =>
          cases h with
          | item h hlater =>
              have hcomma : (reader.settled choice (.element (count + 1))).step ',' =
                  .ok { reader.settled choice (.element (count + 1)) with
                    place := .nextElement (count + 1) } := by
                have hlength := hmembers.2.length_le
                rw [List.length_map, List.length_cons, List.length_drop] at hlength
                have hmore : count + 1 < Member.all.length := by omega
                simp [settled, afterValue, step, isJsonBlank, hmore, move]
              rw [reader.run_element hmember h, run_cons_of_step hcomma]
              exact ih _ _ hmembers.2 hlater

theorem run_list (reader : Reader) (choices : List Choice)
    (hmembers : choices.map Choice.member <+: Member.all) {text rest : List Char}
    (h : Json.Reads (.value (.list (choices.map Choice.json))) text rest) :
    ({ reader with place := .start } : Reader).run text =
      ({ reader with
        switches := choices.foldl Switches.choose reader.switches
        place := .finished } : Reader).run rest := by
  have hopen : ({ reader with place := .start } : Reader).step '[' =
      .ok { reader with place := .firstElement } := rfl
  cases choices with
  | nil =>
      cases h with
      | noItems h =>
          rw [run_cons_of_step hopen, run_blanks rfl h]
          exact run_cons_of_step rfl _
      | list h => cases h
  | cons choice choices =>
      cases h with
      | list h =>
          rcases h.items_front with ⟨c, cs, hfront, hc⟩
          rw [List.mem_append, not_or] at hc
          have hbracket : c ≠ ']' := fun heq => hc.2 (heq ▸ by decide)
          have hfirst : ({ reader with place := .firstElement } : Reader).step c =
              ({ reader with place := .nextElement 0 } : Reader).step c := by
            simp [step, not_isJsonBlank_of_not_mem hc.1, hbracket, stepElement, Member.all,
              Switch.all, stepKnown, stepToken, move]
          rw [run_cons_of_step hopen, run_blanks rfl hfront, run_cons, hfirst, <- run_cons]
          rw [<- reader.run_items 0 (choice :: choices) hmembers h, run_blanks rfl hfront]

end Reader

namespace Switches

theorem parse_eq {json : Json} {text : String} (h : json.WrittenAs text)
    (read : Except Defect Reader)
    (hread : forall {inner after : List Char}, Json.Reads (.value json) inner after ->
      Reader.start.run inner =
        read >>= fun next => ({ next with place := .finished } : Reader).run after) :
    parse text = read >>= fun next => .ok next.switches := by
  cases h with
  | padded hbefore h hafter =>
      rw [parse, parseChars, Reader.run_blanks rfl hbefore, hread h]
      cases read with
      | error defect => rfl
      | ok next => exact next.run_finished hafter

theorem parse_object {entries : List Entry} {text : String}
    (h : (Entry.object entries).WrittenAs text) :
    parse text = entries.foldlM Reader.enter Reader.start >>= fun next => .ok next.switches :=
  parse_eq h (entries.foldlM Reader.enter Reader.start) fun h =>
    Reader.start.run_object entries h

theorem parse_list {choices : List Choice} (hmembers : choices.map Choice.member <+: Member.all)
    {text : String} (h : (Json.list (choices.map Choice.json)).WrittenAs text) :
    parse text = .ok (choices.foldl choose Switches.default) :=
  parse_eq h (.ok { Reader.start with switches := choices.foldl choose Switches.default }) fun h =>
    Reader.start.run_list choices hmembers h

end Switches

end Settings

end BrokerProbe
